import RuntimeLog.Jitlog.Format
import RuntimeLog.Proofs.Forest.Atomicity

/-!
# Steps of a forest

All that a record can do to a forest: there is one case for every way in which a
record is applied.  A record which cannot be applied takes no step.
-/

namespace RuntimeLog

open RuntimeLog.Update

/-- Whether an anomaly is about machine code which was not attached. -/
def Anomaly.isAboutCode : Anomaly → Bool
  | codeWithoutOperation _ | codeReassigned .. => true
  | _ => false

namespace Stage

/-- The operation which a record appends to a stage. -/
def operationOf
    (stage : Stage)
    (opcode : UInt16)
    (name arguments : String)
    (failArguments : Option String)
    (descriptor : Option UInt64) : Operation :=
  let list := ArgumentList.parse arguments descriptor.isSome
  { index := stage.nextIndex
    opcode
    name
    arguments := list.arguments
    result := list.result
    descriptor := descriptor.map fun number => { label := list.label.getD "", number }
    code := none
    failArguments := failArguments.bind ArgumentList.parseFail }

/-- The point of the operation which is appended next to a stage of a trace. -/
def nextPoint (stage : Stage) (id : UInt64) : TracePoint :=
  { trace := id, operation := some { stage := stage.kind, index := stage.nextIndex } }

/-- The descriptor whose passes are counted by an operation which is appended
next. -/
def counted? (stage : Stage) (name : String) : Option Descriptor :=
  if name = Forest.counterName then stage.lastOperation?.bind Operation.descriptor else none

end Stage

namespace Forest

/-- Index the next point of a stage under the descriptor of its operation and
under the one which the operation counts. -/
def indexNext
    (forest : Forest)
    (point : TracePoint)
    (name : String)
    (descriptor : Option UInt64)
    (counted : Option Descriptor) : Forest :=
  let indexed :=
    match descriptor with
    | some number => forest.indexDescriptor number name point
    | none => forest
  match counted with
  | some counted =>
      { indexed with counterPoints := indexed.counterPoints.insert counted.number point }
  | none => indexed

/-- Set the bounds of a trace and index its start. -/
def place (forest : Forest) (id start finish : UInt64) : Forest :=
  let bounded := forest.modifyTrace id fun trace => { trace with bounds := some (start, finish) }
  let placed := { bounded with byStart := bounded.byStart.insert start id }
  match bounded.byStart[start]? with
  | some previous =>
      if previous = id then placed else placed.report (.addressCollision start previous id)
  | none => placed

/-- Note the source line of a merge point of a trace. -/
def noteLocation (forest : Forest) (id : UInt64) (point : MergePoint) : Forest :=
  match point.location? with
  | some (file, line) => forest.modifyTrace id fun trace => trace.addSourceLine file line
  | none => forest

/-- What a record makes of a forest. -/
inductive Step (forest : Forest) : Jitlog.Record → Forest → Prop
  | inputArguments
      {list : String}
      {trace : Trace}
      (current : forest.currentTrace = .ok trace) :
      Step forest (.inputArguments list)
        (forest.modifyTrace trace.id fun trace =>
          { trace with inputArguments := ArgumentList.parseInput list })
  | opcodes
      {names : List (UInt16 × String)}
      (undeclared : forest.opcodes = none) :
      Step forest (.opcodes names)
        { forest with
          opcodes := some (names.foldl (fun map entry => map.insert entry.1 entry.2) ∅) }
  | operation
      {opcode : UInt16}
      {arguments name : String}
      {failArguments : Option String}
      {descriptor : Option UInt64}
      {trace : Trace}
      {stage : Stage}
      (named : forest.opcodeName? opcode = some name)
      (active : forest.currentStage = .ok (trace, stage)) :
      Step forest (.operation opcode arguments failArguments descriptor)
        ((forest.modifyStage trace.id stage.kind fun inner =>
            inner.pushOperation
              (stage.operationOf opcode name arguments failArguments descriptor)).indexNext
          (stage.nextPoint trace.id) name descriptor (stage.counted? name))
  | boundsAgain
      {start finish : UInt64}
      {trace : Trace}
      {bounds : UInt64 × UInt64}
      (current : forest.currentTrace = .ok trace)
      (known : trace.bounds = some bounds) :
      Step forest (.bounds start finish) (forest.report (.boundsReassigned trace.id))
  | bounds
      {start finish : UInt64}
      {trace : Trace}
      (current : forest.currentTrace = .ok trace)
      (unknown : trace.bounds = none) :
      Step forest (.bounds start finish) (forest.place trace.id start finish)
  | codeIgnored
      {code : CodeSnippet}
      {anomaly : Anomaly}
      (noted : anomaly.isAboutCode) :
      Step forest (.code code) (forest.report anomaly)
  | code
      {code : CodeSnippet}
      {trace : Trace}
      {stage : Stage}
      {operation : Operation}
      (active : forest.currentStage = .ok (trace, stage))
      (last : stage.lastOperation? = some operation)
      (bare : operation.code = none) :
      Step forest (.code code)
        (forest.modifyStage trace.id stage.kind fun stage => stage.attachCode code)
  | enterStage
      {kind : StageKind}
      {trace : Trace}
      (current : forest.currentTrace = .ok trace) :
      Step forest (.enterStage kind trace.id)
        (forest.modifyTrace trace.id fun trace => trace.enterStage kind)
  | bridgeUnattached
      {descriptor address bridge : UInt64}
      (assembled : forest.byStart[address]? = some bridge)
      (unregistered : forest.descriptorPoints[descriptor]? = none) :
      Step forest (.stitchBridge descriptor address)
        (forest.report (.missingBridgeOrigin descriptor bridge))
  | stitchBridge
      {descriptor address bridge : UInt64}
      {origin : TracePoint}
      (assembled : forest.byStart[address]? = some bridge)
      (registered : forest.descriptorPoints[descriptor]? = some origin) :
      Step forest (.stitchBridge descriptor address) (forest.link origin (.entry bridge))
  | startTrace
      {id attachedDescriptor : UInt64}
      {kindName : String}
      {driver shown : Option String}
      {kind : TraceKind}
      (new : forest.trace? id = none) :
      Step forest (.startTrace id kindName attachedDescriptor driver)
        { forest with
          traces := forest.traces.push (.start id kind attachedDescriptor shown)
          current := some id }
  | counter
      {number count : UInt64}
      {kind : UInt8} :
      Step forest (.counter number kind count) (forest.addCounter number kind count)
  | layout
      {declarations : List FieldDeclaration}
      {trace : Trace}
      {stage : Stage}
      (active : forest.currentStage = .ok (trace, stage)) :
      Step forest (.layout declarations)
        (forest.modifyStage trace.id stage.kind fun stage =>
          { stage with layout := some (declarations.map MergeField.declare) })
  | mergePoint
      {written : List WrittenValue}
      {layout : List MergeField}
      {values : List (FieldType × FieldValue)}
      {trace : Trace}
      {stage : Stage}
      (declared : forest.currentLayout = .ok layout)
      (resolved : resolveFrom 0 layout written = .ok values)
      (active : forest.currentStage = .ok (trace, stage)) :
      Step forest (.mergePoint written)
        ((forest.noteLocation trace.id
            { index := 0, values := MergePoint.valuesOf values }).modifyStage trace.id stage.kind
          fun stage => stage.pushMergePoint (MergePoint.valuesOf values))
  | sharedStart
      {field : UInt8}
      {start : String}
      {layout : List MergeField}
      {declared : MergeField}
      {trace : Trace}
      {stage : Stage}
      (active : forest.currentStage = .ok (trace, stage))
      (known : stage.layout = some layout)
      (text : (layout[field.toNat]?).filter (fun declared => declared.kind == .text) =
        some declared) :
      Step forest (.sharedStart field start)
        (forest.modifyStage trace.id stage.kind fun stage =>
          { stage with layout := some (layout.set field.toNat { declared with start := some start }) })
  | abortTrace
      {id : UInt64} :
      Step forest (.abortTrace id) (forest.abortTrace id)
  | sourceLines
      {file : String}
      {lines : List (UInt16 × SourceLine)} :
      Step forest (.sourceLines file lines) (forest.addSourceLines file lines)
  | redirectIgnored
      {before after target : UInt64}
      (unregistered : forest.descriptorPoints[before]? = none) :
      Step forest (.redirect before after target)
        (forest.report (.missingRedirectOrigin before))
  | redirect
      {before after target : UInt64}
      {trace : Trace}
      {origin : TracePoint}
      (known : forest.trace? target = some trace)
      (registered : forest.descriptorPoints[before]? = some origin) :
      Step forest (.redirect before after target)
        (if after = before then (forest.unlink origin).link origin (.entry target)
          else ((forest.unlink origin).link origin (.entry target)).registerDescriptor after origin)
  | patch
      {address : UInt64}
      {bytes : Bytes} :
      Step forest (.patch address bytes) (forest.addPatch address bytes)

variable {forest next : Forest}

/-! ## Traces and stages -/

theorem step_inputArguments
    {list : String}
    (made : (setInputArguments list).run forest = .ok () next) :
    forest.Step (.inputArguments list) next := by
  obtain ⟨trace, _, found, changed⟩ := run_bind_eq_ok.mp made
  obtain ⟨current, rfl⟩ := run_look_eq_ok.mp found
  cases run_modify_eq_ok.mp changed
  exact .inputArguments current

theorem step_opcodes
    {names : List (UInt16 × String)}
    (made : (declareOpcodes names).run forest = .ok () next) :
    forest.Step (.opcodes names) next := by
  obtain ⟨_, _, looked, changed⟩ := run_bind_eq_ok.mp made
  obtain ⟨rfl, rfl⟩ := run_get_eq_ok.mp looked
  split at changed
  · exact absurd changed run_throw_ne_ok
  · cases run_modify_eq_ok.mp changed
    exact .opcodes ‹_›

theorem step_startTrace
    {id attachedDescriptor : UInt64}
    {kindName : String}
    {driver : Option String}
    (made : (startTrace id kindName attachedDescriptor driver).run forest = .ok () next) :
    forest.Step (.startTrace id kindName attachedDescriptor driver) next := by
  unfold startTrace at made
  split at made
  · exact absurd made run_throw_ne_ok
  · obtain ⟨_, _, looked, changed⟩ := run_bind_eq_ok.mp made
    obtain ⟨rfl, rfl⟩ := run_get_eq_ok.mp looked
    split at changed
    · exact absurd changed run_throw_ne_ok
    · cases run_modify_eq_ok.mp changed
      exact .startTrace ‹_›

/-- The current trace has the id which says so. -/
theorem id_of_currentTrace
    {trace : Trace}
    (current : forest.currentTrace = .ok trace) :
    forest.current = some trace.id ∧ forest.trace? trace.id = some trace := by
  unfold currentTrace at current
  split at current
  · cases current
  · rename_i id started
    split at current
    · cases current
    · rename_i known
      cases current
      have own : trace.id = id := by simpa using List.find?_some known
      rw [own]
      exact ⟨started, known⟩

theorem step_enterStage
    {id : UInt64}
    {kind : StageKind}
    (made : (enterStage id kind).run forest = .ok () next) :
    forest.Step (.enterStage kind id) next := by
  obtain ⟨_, _, looked, guarded⟩ := run_bind_eq_ok.mp made
  obtain ⟨rfl, rfl⟩ := run_get_eq_ok.mp looked
  dsimp only at guarded
  split at guarded
  · rename_i started
    obtain ⟨trace, _, found, changed⟩ := run_bind_eq_ok.mp guarded
    obtain ⟨current, rfl⟩ := run_look_eq_ok.mp found
    cases run_modify_eq_ok.mp changed
    cases started.symm.trans (id_of_currentTrace current).1
    exact .enterStage current
  · exact absurd guarded run_throw_ne_ok

/-! ## Operations -/

/-- What is left to do for an operation which was appended. -/
theorem indexNext_of_run
    {name : String}
    {point : TracePoint}
    {descriptor : Option UInt64}
    {counted : Option Descriptor}
    (made :
      (do
        if let some number := descriptor then
          modify fun forest => forest.indexDescriptor number name point
        if let some counted := counted then
          modify fun forest =>
            { forest with counterPoints := forest.counterPoints.insert counted.number point } :
        Update Forest Unit).run forest = .ok () next) :
    next = forest.indexNext point name descriptor counted := by
  cases descriptor with
  | none =>
      cases counted with
      | none => exact (run_pure_eq_ok.mp made).2
      | some counted => exact run_modify_eq_ok.mp made
  | some number =>
      obtain ⟨_, _, indexed, rest⟩ := run_bind_eq_ok.mp made
      cases run_modify_eq_ok.mp indexed
      cases counted with
      | none => exact (run_pure_eq_ok.mp rest).2
      | some counted => exact run_modify_eq_ok.mp rest

theorem step_operation
    {offset : Nat}
    {opcode : UInt16}
    {arguments : String}
    {failArguments : Option String}
    {descriptor : Option UInt64}
    (made : (addOperation offset opcode arguments failArguments descriptor).run forest =
      .ok () next) :
    forest.Step (.operation opcode arguments failArguments descriptor) next := by
  obtain ⟨_, _, looked, guarded⟩ := run_bind_eq_ok.mp made
  obtain ⟨rfl, rfl⟩ := run_get_eq_ok.mp looked
  split at guarded
  · exact absurd guarded run_throw_ne_ok
  · rename_i name named
    obtain ⟨⟨trace, stage⟩, _, found, appends⟩ := run_bind_eq_ok.mp guarded
    obtain ⟨active, rfl⟩ := run_look_eq_ok.mp found
    obtain ⟨_, _, appended, indexes⟩ := run_bind_eq_ok.mp appends
    cases run_modify_eq_ok.mp appended
    cases indexNext_of_run indexes
    exact .operation named active

/-- What is left to do for a trace whose bounds were set. -/
theorem place_of_run
    {id start finish : UInt64}
    (made :
      (do
        modify fun forest => forest.modifyTrace id fun trace =>
          { trace with bounds := some (start, finish) }
        let previous := (← get).byStart[start]?
        modify fun forest => { forest with byStart := forest.byStart.insert start id }
        if let some previous := previous then
          unless previous = id do
            modify fun forest => forest.report (.addressCollision start previous id) :
        Update Forest Unit).run forest = .ok () next) :
    next = forest.place id start finish := by
  obtain ⟨_, bounded, changed, gets⟩ := run_bind_eq_ok.mp made
  obtain ⟨_, _, looked, places⟩ := run_bind_eq_ok.mp gets
  obtain ⟨rfl, rfl⟩ := run_get_eq_ok.mp looked
  obtain ⟨_, placed, inserted, reports⟩ := run_bind_eq_ok.mp places
  cases run_modify_eq_ok.mp changed
  cases run_modify_eq_ok.mp inserted
  unfold place
  dsimp only
  split at reports
  · rename_i previous found
    rw [found]
    split at reports
    · rename_i same
      exact (run_pure_eq_ok.mp reports).2.trans (if_pos same).symm
    · rename_i other
      exact (run_modify_eq_ok.mp reports).trans (if_neg other).symm
  · rename_i missing
    rw [Option.eq_none_iff_forall_ne_some.mpr fun previous found => missing previous found]
    exact (run_pure_eq_ok.mp reports).2

theorem step_bounds
    {start finish : UInt64}
    (made : (setBounds start finish).run forest = .ok () next) :
    forest.Step (.bounds start finish) next := by
  obtain ⟨trace, _, found, guarded⟩ := run_bind_eq_ok.mp made
  obtain ⟨current, rfl⟩ := run_look_eq_ok.mp found
  split at guarded
  · cases run_modify_eq_ok.mp guarded
    exact .boundsAgain current ‹_›
  · cases place_of_run guarded
    exact .bounds current ‹_›

theorem step_code
    {code : CodeSnippet}
    (made : (attachCode code).run forest = .ok () next) :
    forest.Step (.code code) next := by
  obtain ⟨⟨trace, stage⟩, _, found, changed⟩ := run_bind_eq_ok.mp made
  obtain ⟨active, rfl⟩ := run_look_eq_ok.mp found
  dsimp only at changed
  split at changed
  · cases run_modify_eq_ok.mp changed
    exact .codeIgnored rfl
  · rename_i operation last
    split at changed
    · cases run_modify_eq_ok.mp changed
      exact .codeIgnored rfl
    · rename_i bare
      cases run_modify_eq_ok.mp changed
      exact .code active last (by simpa using bare)

/-! ## Merge points -/

theorem step_layout
    {declarations : List FieldDeclaration}
    (made : (declareLayout declarations).run forest = .ok () next) :
    forest.Step (.layout declarations) next := by
  obtain ⟨⟨trace, stage⟩, _, found, changed⟩ := run_bind_eq_ok.mp made
  obtain ⟨active, rfl⟩ := run_look_eq_ok.mp found
  cases run_modify_eq_ok.mp changed
  exact .layout active

theorem step_sharedStart
    {field : UInt8}
    {start : String}
    (made : (declareSharedStart field start).run forest = .ok () next) :
    forest.Step (.sharedStart field start) next := by
  obtain ⟨⟨trace, stage⟩, _, found, guarded⟩ := run_bind_eq_ok.mp made
  obtain ⟨active, rfl⟩ := run_look_eq_ok.mp found
  dsimp only at guarded
  split at guarded
  · exact absurd guarded run_throw_ne_ok
  · rename_i layout known
    split at guarded
    · exact absurd guarded run_throw_ne_ok
    · rename_i declared text
      cases run_modify_eq_ok.mp guarded
      exact .sharedStart active known text

theorem step_mergePoint
    {written : List WrittenValue}
    (made : (addMergePoint written).run forest = .ok () next) :
    forest.Step (.mergePoint written) next := by
  obtain ⟨layout, _, foundLayout, resolves⟩ := run_bind_eq_ok.mp made
  obtain ⟨declared, rfl⟩ := run_look_eq_ok.mp foundLayout
  obtain ⟨values, _, foundValues, looks⟩ := run_bind_eq_ok.mp resolves
  obtain ⟨resolved, rfl⟩ := run_look_eq_ok.mp foundValues
  obtain ⟨trace, middle, foundTrace, notes⟩ := run_bind_eq_ok.mp looks
  obtain ⟨current, rfl⟩ := run_look_eq_ok.mp foundTrace
  obtain ⟨other, stage, active⟩ := exists_stage_of_currentLayout declared
  cases current.symm.trans (active_of_currentStage active).1
  have appended := Step.mergePoint declared resolved active
  unfold noteLocation at appended
  dsimp only at notes
  split at notes
  · rename_i file line located
    have still := currentStage_addSourceLine active file line
    obtain ⟨_, _, noted, rest⟩ := run_bind_eq_ok.mp notes
    cases run_modify_eq_ok.mp noted
    obtain ⟨_, _, foundStage, changed⟩ := run_bind_eq_ok.mp rest
    obtain ⟨again, rfl⟩ := run_look_eq_ok.mp foundStage
    cases again.symm.trans still
    cases run_modify_eq_ok.mp changed
    rw [located] at appended
    exact appended
  · rename_i unlocated
    obtain ⟨_, _, foundStage, changed⟩ := run_bind_eq_ok.mp notes
    obtain ⟨again, rfl⟩ := run_look_eq_ok.mp foundStage
    cases again.symm.trans active
    cases run_modify_eq_ok.mp changed
    have nowhere : ({ index := 0, values := MergePoint.valuesOf values } : MergePoint).location? =
        none :=
      Option.eq_none_iff_forall_ne_some.mpr fun place located => unlocated place.1 place.2 located
    rw [nowhere] at appended
    exact appended

/-! ## Links and the rest -/

theorem step_stitchBridge
    {descriptor address : UInt64}
    (made : (stitchBridge descriptor address).run forest = .ok () next) :
    forest.Step (.stitchBridge descriptor address) next := by
  obtain ⟨_, _, looked, guarded⟩ := run_bind_eq_ok.mp made
  obtain ⟨rfl, rfl⟩ := run_get_eq_ok.mp looked
  split at guarded
  · exact absurd guarded run_throw_ne_ok
  · rename_i bridge assembled
    obtain ⟨_, _, looked, changed⟩ := run_bind_eq_ok.mp guarded
    obtain ⟨rfl, rfl⟩ := run_get_eq_ok.mp looked
    split at changed
    · cases run_modify_eq_ok.mp changed
      exact .bridgeUnattached assembled ‹_›
    · rename_i origin registered
      cases run_modify_eq_ok.mp changed
      exact .stitchBridge assembled registered

theorem step_redirect
    {before after target : UInt64}
    (made : (Forest.redirect before after target).run forest = .ok () next) :
    forest.Step (.redirect before after target) next := by
  obtain ⟨_, _, looked, guarded⟩ := run_bind_eq_ok.mp made
  obtain ⟨rfl, rfl⟩ := run_get_eq_ok.mp looked
  split at guarded
  · exact absurd guarded run_throw_ne_ok
  · rename_i trace known
    obtain ⟨_, _, looked, links⟩ := run_bind_eq_ok.mp guarded
    obtain ⟨rfl, rfl⟩ := run_get_eq_ok.mp looked
    split at links
    · cases run_modify_eq_ok.mp links
      exact .redirectIgnored ‹_›
    · rename_i origin registered
      obtain ⟨_, _, linked, registers⟩ := run_bind_eq_ok.mp links
      cases run_modify_eq_ok.mp linked
      have led : Step _ (.redirect before after target) _ := .redirect known registered
      split at registers
      · rename_i same
        cases (run_pure_eq_ok.mp registers).2
        rw [if_pos same] at led
        exact led
      · rename_i other
        cases run_modify_eq_ok.mp registers
        rw [if_neg other] at led
        exact led

/-- A record which is applied to a forest takes a step. -/
theorem step_of_apply
    {offset : Nat}
    {record : Jitlog.Record}
    (applied : (Jitlog.apply offset record).run forest = .ok () next) :
    forest.Step record next := by
  cases record with
  | inputArguments list => exact step_inputArguments applied
  | opcodes names => exact step_opcodes applied
  | operation opcode arguments failArguments descriptor => exact step_operation applied
  | bounds start finish => exact step_bounds applied
  | code code => exact step_code applied
  | enterStage kind trace => exact step_enterStage applied
  | stitchBridge descriptor address => exact step_stitchBridge applied
  | startTrace id kind attachedDescriptor driver => exact step_startTrace applied
  | counter number kind count =>
      cases run_modify_eq_ok.mp applied
      exact .counter
  | layout declarations => exact step_layout applied
  | mergePoint values => exact step_mergePoint applied
  | sharedStart field start => exact step_sharedStart applied
  | abortTrace id =>
      cases run_modify_eq_ok.mp applied
      exact .abortTrace
  | sourceLines file lines =>
      cases run_modify_eq_ok.mp applied
      exact .sourceLines
  | redirect before after target => exact step_redirect applied
  | patch address bytes =>
      cases run_modify_eq_ok.mp applied
      exact .patch

end Forest
end RuntimeLog
