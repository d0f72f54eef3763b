import Mathlib.Data.List.Nodup
import RuntimeLog.Proofs.Jitlog.Entries
import RuntimeLog.Proofs.Jitlog.MergePoints
import RuntimeLog.Proofs.Trace.Entries
import RuntimeLog.Stream.Zstd.Decoder

/-!
# Stages hold what was logged in them

While records are decoded, the stages of the traces are left and entered again in any order.
Each of them keeps the operations and the merge points which were logged while it was
active, in this order, and refers to every one of them once.
-/

namespace RuntimeLog

open RuntimeLog.Jitlog (History)

/-- Whether a record can change the stages of a trace. -/
def Jitlog.Record.isStaging : Jitlog.Record → Bool
  | .operation .. | .code _ | .enterStage .. | .layout _ | .mergePoint _ | .sharedStart .. => true
  | _ => false

/-! ## Stages -/

namespace Stage

variable {stage : Stage}

/-- An appended entry is the last one, and has no machine code yet. -/
theorem bare_pushOperation {operation : Operation} (uncoded : operation.code = none) :
    (stage.pushOperation operation).entries.toList.map StageEntry.bare =
      stage.entries.toList.map StageEntry.bare ++
        [.operation { operation with index := stage.nextIndex }] := by
  rw [entries_pushOperation, Journal.toList_push, List.map_append, List.map_singleton,
    StageEntry.bare, ← uncoded]

theorem bare_pushMergePoint (values : FieldValues) :
    (stage.pushMergePoint values).entries.toList.map StageEntry.bare =
      stage.entries.toList.map StageEntry.bare ++
        [.mergePoint { index := stage.nextMergePointIndex, values }] := by
  rw [entries_pushMergePoint, Journal.toList_push, List.map_append]
  rfl

/-- Machine code is not seen in entries without it. -/
theorem bare_attachCode (code : CodeSnippet) :
    (stage.attachCode code).entries.toList.map StageEntry.bare =
      stage.entries.toList.map StageEntry.bare := by
  rw [entries_attachCode]
  refine Journal.map_toList_modify (fun entry => ?_) stage.entries
  cases entry <;> rfl

/-- The next operation gets the number of those among the entries. -/
theorem nextIndex_eq_length (stage : Stage) :
    stage.nextIndex =
      ((stage.entries.toList.map StageEntry.bare).filterMap StageEntry.operation?).length := by
  have seen (entry : StageEntry) :
      (StageEntry.operation? ∘ StageEntry.bare) entry =
        entry.operation?.map fun operation => { operation with code := none } := by
    cases entry <;> rfl
  rw [List.filterMap_map, funext seen, ← List.map_filterMap, ← operations_eq, List.length_map,
    operations, Journal.length_toList, nextIndex_eq]

/-- The next merge point gets the number of those among the entries. -/
theorem nextMergePointIndex_eq_length (stage : Stage) :
    stage.nextMergePointIndex =
      ((stage.entries.toList.map StageEntry.bare).filterMap StageEntry.mergePoint?).length := by
  have seen (entry : StageEntry) :
      (StageEntry.mergePoint? ∘ StageEntry.bare) entry = entry.mergePoint? := by
    cases entry <;> rfl
  rw [List.filterMap_map, funext seen, ← mergePoints_eq, mergePoints, Journal.length_toList,
    nextMergePointIndex_eq]

end Stage

/-! ## Stages of forests -/

namespace Forest

/-- The stages of the trace with an id. -/
def stages (forest : Forest) (id : UInt64) : Journal Stage :=
  ((forest.trace? id).map Trace.stages).getD .empty

/-- The stage of a kind among others, which is empty if it was never entered. -/
def stageOf (stages : Journal Stage) (kind : StageKind) : Stage :=
  (stages.find? fun stage => stage.kind == kind).getD (.empty kind)

variable {forest next : Forest} {trace : Trace} {stage : Stage} {id : UInt64} {kind : StageKind}

theorem stages_of_trace? (found : forest.trace? id = some trace) :
    forest.stages id = trace.stages := by
  rw [stages, found]
  rfl

theorem stages_congr (same : next.traces = forest.traces) : next.stages = forest.stages := by
  funext id
  unfold stages trace?
  rw [same]

/-- A change of a trace is seen in the stages of this trace. -/
theorem stages_modifyTrace
    {change : Trace → Trace}
    (same : ∀ trace, (change trace).id = trace.id)
    (found : forest.trace? id = some trace)
    (other : UInt64) :
    (forest.modifyTrace id change).stages other =
      if other = id then (change trace).stages else forest.stages other := by
  unfold stages
  rw [trace?_modifyTrace same]
  split
  · rename_i equal
    rw [equal, found]
    rfl
  · rw [Option.map_id']

/-- A change of a trace which leaves its stages alone is not seen in them. -/
theorem stages_modifyTrace_of_same
    {change : Trace → Trace}
    (same : ∀ trace, (change trace).id = trace.id)
    (kept : ∀ trace, (change trace).stages = trace.stages)
    (forest : Forest)
    (id : UInt64) :
    (forest.modifyTrace id change).stages = forest.stages := by
  funext other
  exact congrArg (Option.getD · .empty) (map_trace?_modifyTrace same kept forest id other)

/-- Links are no part of stages. -/
theorem stages_modifyLinks
    (linksOut linksIn : Trace → Journal TraceLink)
    (forest : Forest)
    (id : UInt64) :
    (forest.modifyTrace id fun trace =>
      { trace with linksOut := linksOut trace, linksIn := linksIn trace }).stages =
      forest.stages :=
  stages_modifyTrace_of_same (by intro _; rfl) (by intro _; rfl) _ _

theorem stages_link (forest : Forest) (origin target : TracePoint) :
    (forest.link origin target).stages = forest.stages := by
  apply link_preserves fun later => later.stages = forest.stages
  case kept => exact fun _ _ _ _ same => (stages_modifyLinks _ _ _ _).trans same
  case before => rfl

theorem stages_unlink (forest : Forest) (origin : TracePoint) :
    (forest.unlink origin).stages = forest.stages := by
  apply unlink_preserves fun later => later.stages = forest.stages
  case kept => exact fun _ _ _ _ same => (stages_modifyLinks _ _ _ _).trans same
  case before => rfl

theorem stages_noteLocation (forest : Forest) (id : UInt64) (point : MergePoint) :
    (forest.noteLocation id point).stages = forest.stages := by
  unfold noteLocation
  split
  · exact stages_modifyTrace_of_same (by intro _; rfl) (by intro _; rfl) _ _
  · rfl

/-- A started trace has no stages. -/
theorem stages_push_start
    {attachedDescriptor : UInt64}
    {kind : TraceKind}
    {driver : Option String}
    (new : forest.trace? id = none) :
    stages { forest with
        traces := forest.traces.push (.start id kind attachedDescriptor driver)
        current := some id } = forest.stages := by
  funext other
  unfold stages
  rw [trace?_push]
  split
  · rename_i equal
    change id = other at equal
    rw [← equal, new]
    rfl
  · rfl

/-- Most records leave all stages alone. -/
theorem Step.stages_eq
    {record : Jitlog.Record}
    (step : forest.Step record next)
    (other : ¬ record.isStaging) :
    next.stages = forest.stages := by
  cases step with
  | inputArguments => exact stages_modifyTrace_of_same (by intro _; rfl) (by intro _; rfl) _ _
  | opcodes => rfl
  | boundsAgain => rfl
  | bounds =>
      exact (stages_congr (traces_place _ _ _ _)).trans
        (stages_modifyTrace_of_same (by intro _; rfl) (by intro _; rfl) _ _)
  | bridgeUnattached => rfl
  | stitchBridge => exact stages_link _ _ _
  | startTrace new => exact stages_push_start new
  | counter =>
      unfold addCounter
      split
      · rename_i point _
        apply stages_modifyTrace_of_same
        all_goals
          intro trace
          cases point.operation <;> rfl
      · rfl
  | abortTrace =>
      unfold Forest.abortTrace
      split
      · exact stages_modifyTrace_of_same (by intro _; rfl) (by intro _; rfl) _ _
      · rfl
  | sourceLines => rfl
  | redirectIgnored => rfl
  | redirect =>
      have led (origin target : TracePoint) :
          ((forest.unlink origin).link origin target).stages = forest.stages :=
        (stages_link _ _ _).trans (stages_unlink _ _)
      split
      · exact led _ _
      · exact (stages_congr (traces_registerDescriptor _ _ _)).trans (led _ _)
  | patch => rfl
  | operation | codeIgnored | code | enterStage | layout | mergePoint | sharedStart =>
      exact absurd rfl other

/-! ## Stages of some kind -/

theorem stageOf_of_find?
    {stages : Journal Stage}
    (found : (stages.find? fun stage => stage.kind == kind) = some stage) :
    stageOf stages kind = stage := by
  rw [stageOf, found]
  rfl

/-- A changed stage is the one of its kind, and the others stay as they are. -/
theorem stageOf_modify
    {stages : Journal Stage}
    {change : Stage → Stage}
    (same : ∀ stage, (change stage).kind = stage.kind)
    (found : (stages.find? fun stage => stage.kind == kind) = some stage)
    (other : StageKind) :
    stageOf (stages.modify (fun stage => stage.kind == kind) change) other =
      if other = kind then change stage else stageOf stages other := by
  unfold stageOf
  rw [Journal.find?_modify_key same]
  split
  · rename_i equal
    rw [equal, found]
    rfl
  · rw [Option.map_id']

/-- An entered stage is empty, as if it had been there before. -/
theorem stageOf_enterStage (trace : Trace) (kind : StageKind) :
    stageOf (trace.enterStage kind).stages = stageOf trace.stages := by
  unfold Trace.enterStage
  split
  · rfl
  · cases entered : trace.stage? kind with
    | some stage => rfl
    | none =>
        funext other
        unfold stageOf
        by_cases equal : kind = other
        · subst equal
          rw [show (trace.stages.find? fun stage => stage.kind == kind) = none from entered]
          simp [Journal.find?, Journal.push, Stage.empty]
        · rw [Journal.find?_push_of_not (by simpa [Stage.empty] using equal)]

/-- There are no two stages of a kind after a stage is entered if there were none before. -/
theorem distinct_enterStage
    (distinct : (trace.stages.toList.map Stage.kind).Nodup)
    (kind : StageKind) :
    ((trace.enterStage kind).stages.toList.map Stage.kind).Nodup := by
  unfold Trace.enterStage
  split
  · exact distinct
  · cases entered : trace.stage? kind with
    | some stage => exact distinct
    | none =>
        have fresh : kind ∉ trace.stages.toList.map Stage.kind := by
          intro member
          obtain ⟨stage, inside, same⟩ := List.mem_map.mp member
          rw [Journal.toList, List.mem_reverse] at inside
          exact List.find?_eq_none.mp entered stage inside (beq_iff_eq.mpr same)
        dsimp only
        rw [Journal.toList_push, List.map_append, List.nodup_append']
        refine ⟨distinct, List.nodup_singleton _, fun other member same => ?_⟩
        cases List.mem_singleton.mp same
        exact fresh member

/-! ## What is kept -/

/-- A forest whose stages have the fields and the entries which a history tells. -/
structure Collects (past : History) (forest : Forest) : Prop where
  /-- A trace has no two stages of a kind. -/
  distinct : ∀ id, ((forest.stages id).toList.map Stage.kind).Nodup
  fields : ∀ id kind, (stageOf (forest.stages id) kind).layout = past.fields? id kind
  entries : ∀ id kind, (stageOf (forest.stages id) kind).entries.toList.map StageEntry.bare =
    past.entriesIn id kind

variable {past : History} {record : Jitlog.Record}

theorem collects_start (header : Header) : Collects [] (start header) where
  distinct _ := List.nodup_nil
  fields _ _ := rfl
  entries _ _ := rfl

theorem Collects.congr (collects : Collects past forest) (same : next.stages = forest.stages) :
    Collects past next := by
  refine ⟨fun id => ?_, fun id kind => ?_, fun id kind => ?_⟩ <;> rw [same]
  · exact collects.distinct id
  · exact collects.fields id kind
  · exact collects.entries id kind

/-- What the active stage holds is what the history tells of it. -/
theorem Collects.of_currentStage
    (collects : Collects past forest)
    (active : forest.currentStage = .ok (trace, stage)) :
    stage.layout = past.fields? trace.id stage.kind ∧
      stage.entries.toList.map StageEntry.bare = past.entriesIn trace.id stage.kind := by
  obtain ⟨found, stands⟩ := found_of_currentStage active
  have fields := collects.fields trace.id stage.kind
  have entries := collects.entries trace.id stage.kind
  rw [stages_of_trace? found, stageOf_of_find? stands] at fields entries
  exact ⟨fields, entries⟩

/-- A record changes the active stage as the history tells. -/
theorem Collects.modifyStage
    (collects : Collects past forest)
    (tracks : Tracks past.summary forest.outline)
    (active : forest.currentStage = .ok (trace, stage))
    {change : Stage → Stage}
    (same : ∀ stage, (change stage).kind = stage.kind)
    (fields : (change stage).layout = History.fields? (record :: past) trace.id stage.kind)
    (entries : (change stage).entries.toList.map StageEntry.bare =
      History.entriesIn trace.id stage.kind (record :: past)) :
    Collects (record :: past) (forest.modifyStage trace.id stage.kind change) := by
  obtain ⟨found, stands⟩ := found_of_currentStage active
  have stages (other : UInt64) : (forest.modifyStage trace.id stage.kind change).stages other =
      if other = trace.id then trace.stages.modify (fun inner => inner.kind == stage.kind) change
      else forest.stages other :=
    stages_modifyTrace (by intro _; rfl) found other
  have stageOf_eq (id : UInt64) (kind : StageKind) :
      stageOf ((forest.modifyStage trace.id stage.kind change).stages id) kind =
        if id = trace.id ∧ kind = stage.kind then change stage
        else stageOf (forest.stages id) kind := by
    rw [stages]
    by_cases here : id = trace.id
    · rw [if_pos here, stageOf_modify same stands, here, stages_of_trace? found]
      simp only [true_and]
    · rw [if_neg here, if_neg fun both => here both.1]
  refine ⟨fun id => ?_, fun id kind => ?_, fun id kind => ?_⟩
  · rw [stages]
    split
    · rw [Journal.map_toList_modify same, ← stages_of_trace? found]
      exact collects.distinct trace.id
    · exact collects.distinct id
  · rw [stageOf_eq]
    split
    · rename_i here
      rw [here.1, here.2]
      exact fields
    · rename_i elsewhere
      rw [History.fields?_cons_of_elsewhere fun inside =>
        elsewhere ((tracks.isActive_iff active).mp inside)]
      exact collects.fields id kind
  · rw [stageOf_eq]
    split
    · rename_i here
      rw [here.1, here.2]
      exact entries
    · rename_i elsewhere
      rw [History.entriesIn_cons_of_elsewhere fun inside =>
        elsewhere ((tracks.isActive_iff active).mp inside)]
      exact collects.entries id kind

/-- A record which logs nothing and declares nothing leaves what is told of stages alone. -/
theorem Collects.silent
    (collects : Collects past forest)
    (unlogged : ¬ record.isEntry)
    (undeclared : ¬ record.isDeclaring) :
    Collects (record :: past) forest where
  distinct := collects.distinct
  fields id kind := by
    rw [History.fields?_cons_of_silent undeclared]
    exact collects.fields id kind
  entries id kind := by
    rw [History.entriesIn_cons_of_silent unlogged]
    exact collects.entries id kind

/-- An entered stage goes on with what it holds. -/
theorem Collects.enterStage
    (collects : Collects past forest)
    (current : forest.currentTrace = .ok trace)
    (kind : StageKind) :
    Collects past (forest.modifyTrace trace.id fun trace => trace.enterStage kind) := by
  have found := (id_of_currentTrace current).2
  have same (trace : Trace) : (trace.enterStage kind).id = trace.id := by
    unfold Trace.enterStage
    split <;> rfl
  have kept (id : UInt64) :
      stageOf ((forest.modifyTrace trace.id fun trace => trace.enterStage kind).stages id) =
        stageOf (forest.stages id) := by
    rw [stages_modifyTrace same found]
    split
    · rename_i here
      rw [here, stageOf_enterStage, stages_of_trace? found]
    · rfl
  refine ⟨fun id => ?_, fun id other => ?_, fun id other => ?_⟩
  · rw [stages_modifyTrace same found]
    split
    · have distinct := collects.distinct trace.id
      rw [stages_of_trace? found] at distinct
      exact distinct_enterStage distinct kind
    · exact collects.distinct id
  · rw [kept]
    exact collects.fields id other
  · rw [kept]
    exact collects.entries id other

/-- An operation is appended to the active stage. -/
theorem Collects.operation
    (collects : Collects past forest)
    (tracks : Tracks past.summary forest.outline)
    (active : forest.currentStage = .ok (trace, stage))
    {opcode : UInt16}
    {name : String}
    (named : forest.opcodeName? opcode = some name)
    (arguments : String)
    (failArguments : Option String)
    (descriptor : Option UInt64) :
    Collects (.operation opcode arguments failArguments descriptor :: past)
      (forest.modifyStage trace.id stage.kind fun inner =>
        inner.pushOperation
          (stage.operationOf opcode name arguments failArguments descriptor)) := by
  obtain ⟨current, inside⟩ := (tracks.isActive_iff active).mpr ⟨rfl, rfl⟩
  obtain ⟨fields, entries⟩ := collects.of_currentStage active
  have declared : past.opcodeName? opcode = some name := (tracks.opcodes opcode).symm.trans named
  have undeclared :
      ¬ (Jitlog.Record.operation opcode arguments failArguments descriptor).isDeclaring :=
    Bool.false_ne_true
  refine collects.modifyStage tracks active (by intro _; rfl) ?_ ?_
  · rw [History.fields?_cons_of_silent undeclared]
    exact fields
  · rw [History.entriesIn_cons_of_active current inside, Stage.bare_pushOperation rfl, entries,
      History.entryBehind?, declared, ← entries, ← stage.nextIndex_eq_length]
    rfl

/-- A merge point is appended to the active stage. -/
theorem Collects.mergePoint
    (collects : Collects past forest)
    (tracks : Tracks past.summary forest.outline)
    (active : forest.currentStage = .ok (trace, stage))
    {written : List WrittenValue}
    {layout : List MergeField}
    {values : List (FieldType × FieldValue)}
    (declared : stage.layout = some layout)
    (resolved : resolveFrom 0 layout written = .ok values) :
    Collects (.mergePoint written :: past)
      (forest.modifyStage trace.id stage.kind fun inner =>
        inner.pushMergePoint (MergePoint.valuesOf values)) := by
  obtain ⟨current, inside⟩ := (tracks.isActive_iff active).mpr ⟨rfl, rfl⟩
  obtain ⟨fields, entries⟩ := collects.of_currentStage active
  have undeclared : ¬ (Jitlog.Record.mergePoint written).isDeclaring := Bool.false_ne_true
  refine collects.modifyStage tracks active (by intro _; rfl) ?_ ?_
  · rw [History.fields?_cons_of_silent undeclared]
    exact fields
  · rw [History.entriesIn_cons_of_active current inside, Stage.bare_pushMergePoint, entries,
      History.entryBehind?, ← fields, declared, Option.bind_some, resolved, ← entries,
      ← stage.nextMergePointIndex_eq_length]
    rfl

/-- The layout in force is the one of the active stage. -/
theorem layout_of_currentLayout
    {layout : List MergeField}
    (active : forest.currentStage = .ok (trace, stage))
    (declared : forest.currentLayout = .ok layout) :
    stage.layout = some layout := by
  unfold currentLayout at declared
  rw [active] at declared
  simp only [bind, Except.bind] at declared
  cases known : stage.layout with
  | none =>
      rw [known] at declared
      cases declared
  | some fields =>
      rw [known] at declared
      cases declared
      rfl

/-- A record changes the stages as the history tells. -/
theorem Step.collects
    (step : forest.Step record next)
    (tracks : Tracks past.summary forest.outline)
    (collects : Collects past forest) :
    Collects (record :: past) next := by
  by_cases staging : record.isStaging
  · cases step with
    | operation named active =>
        exact (collects.operation tracks active named _ _ _).congr
          (stages_congr (traces_indexNext _ _ _ _ _))
    | codeIgnored =>
        exact Collects.congr (collects.silent Bool.false_ne_true Bool.false_ne_true) rfl
    | @code code _ _ _ active =>
        obtain ⟨fields, entries⟩ := collects.of_currentStage active
        have unlogged : ¬ (Jitlog.Record.code code).isEntry := Bool.false_ne_true
        have undeclared : ¬ (Jitlog.Record.code code).isDeclaring := Bool.false_ne_true
        refine collects.modifyStage tracks active (by intro _; rfl) ?_ ?_
        · rw [History.fields?_cons_of_silent undeclared]
          exact fields
        · rw [History.entriesIn_cons_of_silent unlogged, Stage.bare_attachCode]
          exact entries
    | enterStage current =>
        exact (collects.enterStage current _).silent Bool.false_ne_true Bool.false_ne_true
    | @layout declarations _ _ active =>
        obtain ⟨current, inside⟩ := (tracks.isActive_iff active).mpr ⟨rfl, rfl⟩
        have unlogged : ¬ (Jitlog.Record.layout declarations).isEntry := Bool.false_ne_true
        refine collects.modifyStage tracks active (by intro _; rfl)
          (History.fields?_cons_layout current inside _).symm ?_
        rw [History.entriesIn_cons_of_silent unlogged]
        exact (collects.of_currentStage active).2
    | @mergePoint written layout values trace stage declared resolved active =>
        -- the source line is noted first, in the same trace
        obtain ⟨noted, still, own, _⟩ :=
          exists_noted active { index := 0, values := MergePoint.valuesOf values }
        have told : Tracks past.summary
            (forest.noteLocation trace.id
              { index := 0, values := MergePoint.valuesOf values }).outline := by
          rw [outline_noteLocation]
          exact tracks
        have appended := (collects.congr (stages_noteLocation _ _ _)).mergePoint told still
          (layout_of_currentLayout active declared) resolved
        rw [own] at appended
        exact appended
    | @sharedStart field start _ _ _ _ active known text =>
        obtain ⟨current, inside⟩ := (tracks.isActive_iff active).mpr ⟨rfl, rfl⟩
        obtain ⟨fields, entries⟩ := collects.of_currentStage active
        have unlogged : ¬ (Jitlog.Record.sharedStart field start).isEntry := Bool.false_ne_true
        refine collects.modifyStage tracks active (by intro _; rfl)
          (History.fields?_cons_sharedStart current inside (fields.symm.trans known)
            (Option.filter_eq_some_iff.mp text).1).symm ?_
        rw [History.entriesIn_cons_of_silent unlogged]
        exact entries
    | _ => cases staging
  · have quiet : ¬ record.isEntry ∧ ¬ record.isDeclaring := by
      cases record with
      | operation | mergePoint | layout | sharedStart => exact absurd rfl staging
      | _ => exact ⟨Bool.false_ne_true, Bool.false_ne_true⟩
    exact (collects.silent quiet.1 quiet.2).congr (step.stages_eq staging)

/-! ## Reached states -/

/-- In every state of a reader the stages hold what the decoded records tell. -/
theorem collects_of_reached
    [Stream.Decompressor]
    {source : Stream.Source}
    {chunk : Nat}
    {history : History}
    {reader : LogReader Jitlog.format}
    (reached : LogReader.Reached source chunk history reader) :
    Collects history reader.model :=
  holds_of_reached reached collects_start
    (fun same collects => collects.congr (stages_congr same))
    (fun step tracks collects => step.collects tracks collects)

/-- A stage of a trace which holds what a history tells of it. -/
structure HoldsLogged (history : History) (trace : Trace) (stage : Stage) : Prop where
  /-- Its entries are the operations and merge points which were logged while it was active,
  in this order.  Machine code is logged behind them. -/
  logged : stage.entries.toList.map StageEntry.bare = history.entriesIn trace.id stage.kind
  operations : stage.operations = stage.entries.toList.filterMap StageEntry.operation?
  mergePoints : stage.mergePoints = stage.entries.toList.filterMap StageEntry.mergePoint?
  operationIndexes : stage.operations.map Operation.index = List.range stage.operations.length
  mergePointIndexes :
    stage.mergePoints.map MergePoint.index = List.range stage.mergePoints.length
  size : stage.size = stage.entries.toList.length
  /-- No reference is out of bounds, and they refer to the entries at their places. -/
  references : stage.order.toList.map (EntryRef.entry? stage.operations stage.mergePoints) =
    stage.entries.toList.map some
  /-- What was logged earlier comes first. -/
  continued : ∀ later earlier, history = later ++ earlier →
    earlier.entriesIn trace.id stage.kind <+: stage.entries.toList.map StageEntry.bare
  /-- Whichever stage is entered next, this one is the one of its kind. -/
  stays : ∀ kind, (trace.enterStage kind).stage? stage.kind = some stage

/-- Every stage of every trace holds the operations and merge points which were logged while it
was active in the trace, each of them once, in the order in which they were logged. -/
theorem holdsLogged_of_reached
    [Stream.Decompressor]
    {source : Stream.Source}
    {chunk : Nat}
    {history : History}
    {reader : LogReader Jitlog.format}
    (reached : LogReader.Reached source chunk history reader) :
    ∀ trace ∈ reader.model.traces.toList, ∀ stage ∈ trace.stages.toList,
      HoldsLogged history trace stage := by
  intro trace traceMember stage stageMember
  have collects := collects_of_reached reached
  have found := (tracks_of_reached reached).trace?_of_mem traceMember
  have stands : trace.stage? stage.kind = some stage := by
    have distinct := collects.distinct trace.id
    rw [stages_of_trace? found, Journal.toList, List.map_reverse, List.nodup_reverse] at distinct
    rw [Journal.toList, List.mem_reverse] at stageMember
    exact find?_of_distinct distinct stageMember
  have logged := collects.entries trace.id stage.kind
  rw [stages_of_trace? found, stageOf_of_find? stands] at logged
  constructor
  case logged => exact logged
  case operations => exact stage.operations_eq
  case mergePoints => exact stage.mergePoints_eq
  case operationIndexes =>
    rw [Stage.operations, Journal.length_toList]
    exact stage.interleaved.index_operations
  case mergePointIndexes =>
    rw [Stage.mergePoints, Journal.length_toList]
    exact stage.interleaved.index_mergePoints
  case size => exact stage.size_eq
  case references =>
    rw [Journal.toList, Journal.toList, List.map_reverse, List.map_reverse, stage.map_entry?_order]
  case continued =>
    rintro later earlier rfl
    rw [logged]
    exact History.prefix_entriesIn later earlier
  case stays => exact fun kind => Trace.stage?_enterStage stands kind

/-- Records by which a stage is left and entered again, once from another stage and once while
it is active. -/
def resumedRecords : List Jitlog.Record :=
  [.opcodes [(1, "int_add")],
    .startTrace 1 "loop" 0 (some ""),
    .enterStage .noopt 1,
    .layout [⟨.fileName, .text⟩],
    .operation 1 "" (some "") none,
    .mergePoint [.whole "a"],
    .enterStage .opt 1,
    .operation 1 "" (some "") none,
    .enterStage .noopt 1,
    .mergePoint [.whole "b"],
    .enterStage .noopt 1,
    .operation 1 "" (some "") none]

/-- A log in which a stage is left and entered again. -/
def resumedLog : Bytes :=
  [0x23, 3, 0, 0, 0, 0, 0, 0] ++ resumedRecords.flatMap (Jitlog.Record.encode .eight)

attribute [local instance] Stream.Zstd.decompressor

set_option maxRecDepth 8000 in
/-- A stage which is entered again goes on with what was logged in it before. -/
theorem holdsLogged_of_resumedLog :
    ∃ reader : LogReader Jitlog.format,
      LogReader.Reached (.ofBytes resumedLog) 16 resumedRecords.reverse reader ∧
      (∀ trace ∈ reader.model.traces.toList, ∀ stage ∈ trace.stages.toList,
        HoldsLogged resumedRecords.reverse trace stage) ∧
      (reader.model.traces.toList.map fun trace =>
          trace.stages.toList.map fun stage => (stage.kind, stage.order.toList)) =
        [[(.noopt, [.operation 0, .mergePoint 0, .mergePoint 1, .operation 1]),
          (.opt, [.operation 0])]] := by
  obtain ⟨markers, last, supported, written, orders⟩ :
      ∃ markers last,
        Jitlog.format.markers? stitchedHeader.version = some markers ∧
        LogReader.Written Jitlog.format { header := stitchedHeader, markers }
          (Jitlog.format.start stitchedHeader) 8 (resumedLog.drop 8) resumedRecords last ∧
        (last.traces.toList.map fun trace =>
            trace.stages.toList.map fun stage => (stage.kind, stage.order.toList)) =
          [[(.noopt, [.operation 0, .mergePoint 0, .mergePoint 1, .operation 1]),
            (.opt, [.operation 0])]] := by
    exact ⟨_, _, rfl,
      .more (by decide) rfl rfl rfl (.more (by decide) rfl rfl rfl (.more (by decide) rfl rfl rfl
        (.more (by decide) rfl rfl rfl (.more (by decide) rfl rfl rfl
          (.more (by decide) rfl rfl rfl (.more (by decide) rfl rfl rfl
            (.more (by decide) rfl rfl rfl (.more (by decide) rfl rfl rfl
              (.more (by decide) rfl rfl rfl (.more (by decide) rfl rfl rfl
                (.more (by decide) rfl rfl rfl .none))))))))))), rfl⟩
  obtain ⟨reader, reached, same⟩ :=
    LogReader.exists_reached_of_written (by decide) rfl supported written 16
  exact ⟨reader, reached, holdsLogged_of_reached reached, by rw [same]; exact orders⟩

end Forest
end RuntimeLog
