import RuntimeLog.Proofs.Forest.Ties

/-!
# Merge points of traces

What a trace tells about merge points: the fields which are declared for them in its
stages, the merge points themselves, and their source lines.  A stage tells nothing
about merge points when it is entered first, and three sorts of records add to what is
told.
-/

namespace RuntimeLog

/-- Whether a record is about merge points. -/
def Jitlog.Record.isMerging : Jitlog.Record → Bool
  | .layout _ | .mergePoint _ | .sharedStart .. => true
  | _ => false

/-- The newest entry which passes a test is changed where it is, between the others. -/
theorem Journal.exists_split_modify
    {α : Type}
    {chosen : α → Bool}
    {journal : Journal α}
    {entry : α}
    (found : journal.find? chosen = some entry)
    (change : α → α) :
    ∃ older newer, journal.toList = older ++ entry :: newer ∧
      (journal.modify chosen change).toList = older ++ change entry :: newer := by
  obtain ⟨entries⟩ := journal
  induction entries with
  | nil => cases found
  | cons newest others inductionHypothesis =>
      by_cases passes : chosen newest
      · cases (List.find?_cons_of_pos passes).symm.trans found
        refine ⟨others.reverse, [], List.reverse_cons, ?_⟩
        rw [modify, modifyNewestFirst, if_pos passes]
        exact List.reverse_cons
      · obtain ⟨older, newer, before, after⟩ :=
          inductionHypothesis ((List.find?_cons_of_neg passes).symm.trans found)
        refine ⟨older, newer ++ [newest], ?_, ?_⟩
        · rw [toList] at before ⊢
          rw [List.reverse_cons, before, List.append_assoc, List.cons_append]
        · rw [modify, toList] at after
          rw [modify, modifyNewestFirst, if_neg passes, toList, List.reverse_cons, after,
            List.append_assoc, List.cons_append]

/-! ## Stages -/

namespace Stage

/-- What a stage tells about merge points. -/
structure Merging where
  /-- The fields of the merge points, once they are declared. -/
  fields : Option (List MergeField)
  points : List MergePoint

/-- What a stage tells in which nothing was logged. -/
def Merging.empty : Merging :=
  { fields := none, points := [] }

/-- What a stage tells about merge points. -/
def merging (stage : Stage) : Merging :=
  { fields := stage.layout, points := stage.mergePoints }

@[simp] theorem mergePoints_pushOperation (stage : Stage) (operation : Operation) :
    (stage.pushOperation operation).mergePoints = stage.mergePoints :=
  rfl

@[simp] theorem mergePoints_attachCode (stage : Stage) (code : CodeSnippet) :
    (stage.attachCode code).mergePoints = stage.mergePoints :=
  rfl

@[simp] theorem mergePoints_pushMergePoint (stage : Stage) (values : FieldValues) :
    (stage.pushMergePoint values).mergePoints =
      stage.mergePoints ++ [{ index := stage.nextMergePointIndex, values }] := by
  simp [mergePoints, pushMergePoint]

theorem merging_pushOperation (stage : Stage) (operation : Operation) :
    (stage.pushOperation operation).merging = stage.merging :=
  congrArg (Merging.mk stage.layout) (stage.mergePoints_pushOperation operation)

theorem merging_attachCode (stage : Stage) (code : CodeSnippet) :
    (stage.attachCode code).merging = stage.merging :=
  congrArg (Merging.mk stage.layout) (stage.mergePoints_attachCode code)

end Stage

/-! ## Traces -/

namespace Trace

/-- What a trace tells about merge points. -/
structure Merging where
  stages : StageKind → Stage.Merging
  /-- The merge points of all stages. -/
  points : List MergePoint
  sourceLines : LineSets

/-- What a trace tells about which nothing was logged. -/
def Merging.empty : Merging :=
  { stages := fun _ => .empty, points := [], sourceLines := ∅ }

/-- The merge points of all stages. -/
def mergePoints (trace : Trace) : List MergePoint :=
  trace.stages.toList.flatMap Stage.mergePoints

/-- What a stage of a trace tells about merge points. -/
def stageMerging (trace : Trace) (kind : StageKind) : Stage.Merging :=
  (trace.stage? kind).elim .empty Stage.merging

/-- What a trace tells about merge points. -/
def merging (trace : Trace) : Merging :=
  { stages := trace.stageMerging
    points := trace.mergePoints
    sourceLines := trace.sourceLines }

variable {trace : Trace} {stage : Stage} {kind : StageKind}

/-- A change of a stage is seen in this stage. -/
theorem stageMerging_modifyStage
    {change : Stage → Stage}
    (same : ∀ stage, (change stage).kind = stage.kind)
    (found : trace.stage? kind = some stage)
    (other : StageKind) :
    (trace.modifyStage kind change).stageMerging other =
      if other = kind then (change stage).merging else trace.stageMerging other := by
  unfold stageMerging
  rw [stage?_modifyStage same]
  split
  · rename_i equal
    rw [equal, found]
    rfl
  · rw [Option.map_id']

/-- A change of a stage which does not touch merge points is not seen in any stage. -/
theorem stageMerging_modifyStage_of_same
    {change : Stage → Stage}
    (same : ∀ stage, (change stage).kind = stage.kind)
    (kept : ∀ stage, (change stage).merging = stage.merging)
    (trace : Trace)
    (kind : StageKind) :
    (trace.modifyStage kind change).stageMerging = trace.stageMerging := by
  funext other
  unfold stageMerging
  rw [stage?_modifyStage same]
  cases trace.stage? other with
  | none => rfl
  | some stage =>
      simp only [Option.map_some, Option.elim_some]
      split
      · exact kept stage
      · rfl

theorem mergePoints_modifyStage_of_same
    {change : Stage → Stage}
    (kept : ∀ stage, (change stage).mergePoints = stage.mergePoints)
    (trace : Trace)
    (kind : StageKind) :
    (trace.modifyStage kind change).mergePoints = trace.mergePoints := by
  unfold mergePoints
  rw [List.flatMap_def, List.flatMap_def]
  exact congrArg List.flatten (Journal.map_toList_modify kept trace.stages)

theorem merging_modifyStage_of_same
    {change : Stage → Stage}
    (same : ∀ stage, (change stage).kind = stage.kind)
    (kept : ∀ stage, (change stage).merging = stage.merging)
    (trace : Trace)
    (kind : StageKind) :
    (trace.modifyStage kind change).merging = trace.merging := by
  unfold merging
  rw [stageMerging_modifyStage_of_same same kept,
    mergePoints_modifyStage_of_same fun stage => congrArg Stage.Merging.points (kept stage)]
  rfl

/-- An appended merge point is one of the trace. -/
theorem mem_mergePoints_pushMergePoint
    {values : FieldValues}
    {point : MergePoint}
    (found : trace.stage? kind = some stage) :
    point ∈ (trace.modifyStage kind fun stage => stage.pushMergePoint values).mergePoints ↔
      point ∈ trace.mergePoints ∨ point = { index := stage.nextMergePointIndex, values } := by
  obtain ⟨older, newer, before, after⟩ :=
    Journal.exists_split_modify found fun stage => stage.pushMergePoint values
  unfold mergePoints modifyStage
  rw [before, after]
  simp only [List.flatMap_append, List.flatMap_cons, Stage.mergePoints_pushMergePoint,
    List.mem_append, List.mem_singleton]
  tauto

/-- Entering a stage tells nothing about merge points. -/
theorem merging_enterStage (trace : Trace) (kind : StageKind) :
    (trace.enterStage kind).merging = trace.merging := by
  unfold enterStage
  split
  · rfl
  · cases found : trace.stage? kind with
    | some stage => rfl
    | none =>
        have points : (trace.stages.push (.empty kind)).toList.flatMap Stage.mergePoints =
            trace.mergePoints := by
          rw [Journal.toList_push, List.flatMap_append]
          exact List.append_nil _
        have stages : stageMerging { trace with
            stages := trace.stages.push (.empty kind)
            activeKind := some kind } = trace.stageMerging := by
          funext other
          unfold stageMerging stage? Journal.find? Journal.push
          rw [List.find?_cons]
          split
          · rename_i equal
            have same : kind = other := by simpa [Stage.empty] using equal
            subst same
            rw [show trace.stages.newestFirst.find? (fun stage => stage.kind == kind) = none
              from found]
            rfl
          · rfl
        unfold merging
        rw [stages]
        exact congrArg (fun points => Merging.mk trace.stageMerging points trace.sourceLines) points

/-- A line is noted for a file beside those which were noted before. -/
theorem mem_sourceLines_addSourceLine
    (trace : Trace)
    (file other : String)
    (line number : UInt64) :
    number ∈ (trace.addSourceLine file line).sourceLines.getD other ∅ ↔
      number ∈ trace.sourceLines.getD other ∅ ∨ file = other ∧ line = number := by
  unfold addSourceLine
  rw [Std.ExtTreeMap.getD_insert]
  by_cases same : file = other
  · subst same
    simp [Std.ExtTreeSet.mem_insert, or_comm]
  · simp [same]

end Trace

/-! ## Forests -/

namespace Forest

/-- What the trace with an id tells about merge points. -/
def merging (forest : Forest) (id : UInt64) : Trace.Merging :=
  ((forest.trace? id).map Trace.merging).getD .empty

variable {forest next : Forest} {trace : Trace} {stage : Stage}

theorem merging_of_trace? {id : UInt64} (found : forest.trace? id = some trace) :
    forest.merging id = trace.merging := by
  rw [merging, found]
  rfl

/-- What is told about merge points is told by the traces. -/
theorem merging_congr (same : next.traces = forest.traces) : next.merging = forest.merging := by
  funext id
  unfold merging trace?
  rw [same]

/-- A change of a trace which does not touch merge points is not seen. -/
theorem merging_modifyTrace_of_same
    {change : Trace → Trace}
    (same : ∀ trace, (change trace).id = trace.id)
    (kept : ∀ trace, (change trace).merging = trace.merging)
    (forest : Forest)
    (id : UInt64) :
    (forest.modifyTrace id change).merging = forest.merging := by
  funext other
  exact congrArg (Option.getD · .empty) (map_trace?_modifyTrace same kept forest id other)

/-- A change of a trace is seen in this trace. -/
theorem merging_modifyTrace
    {change : Trace → Trace}
    (same : ∀ trace, (change trace).id = trace.id)
    {id : UInt64}
    (found : forest.trace? id = some trace)
    (other : UInt64) :
    (forest.modifyTrace id change).merging other =
      if other = id then (change trace).merging else forest.merging other := by
  unfold merging
  rw [trace?_modifyTrace same]
  split
  · rename_i equal
    rw [equal, found]
    rfl
  · rw [Option.map_id']

theorem merging_modifyStage
    {id : UInt64}
    (found : forest.trace? id = some trace)
    (kind : StageKind)
    (change : Stage → Stage)
    (other : UInt64) :
    (forest.modifyStage id kind change).merging other =
      if other = id then (trace.modifyStage kind change).merging else forest.merging other :=
  merging_modifyTrace (by intro _; rfl) found other

theorem merging_modifyStage_of_same
    {change : Stage → Stage}
    (same : ∀ stage, (change stage).kind = stage.kind)
    (kept : ∀ stage, (change stage).merging = stage.merging)
    (forest : Forest)
    (id : UInt64)
    (kind : StageKind) :
    (forest.modifyStage id kind change).merging = forest.merging :=
  merging_modifyTrace_of_same (by intro _; rfl)
    (fun trace => trace.merging_modifyStage_of_same same kept kind) forest id

/-- Links tell nothing about merge points. -/
theorem merging_modifyLinks
    (linksOut linksIn : Trace → Journal TraceLink)
    (forest : Forest)
    (id : UInt64) :
    (forest.modifyTrace id fun trace =>
      { trace with linksOut := linksOut trace, linksIn := linksIn trace }).merging =
      forest.merging :=
  merging_modifyTrace_of_same (by intro _; rfl) (by intro _; rfl) _ _

theorem merging_link (forest : Forest) (origin target : TracePoint) :
    (forest.link origin target).merging = forest.merging := by
  apply link_preserves fun later => later.merging = forest.merging
  case kept => exact fun _ _ _ _ same => (merging_modifyLinks _ _ _ _).trans same
  case before => rfl

theorem merging_unlink (forest : Forest) (origin : TracePoint) :
    (forest.unlink origin).merging = forest.merging := by
  apply unlink_preserves fun later => later.merging = forest.merging
  case kept => exact fun _ _ _ _ same => (merging_modifyLinks _ _ _ _).trans same
  case before => rfl

/-- A started trace tells nothing about merge points. -/
theorem merging_push_start
    {id attachedDescriptor : UInt64}
    {kind : TraceKind}
    {driver : Option String}
    (new : forest.trace? id = none) :
    merging { forest with
        traces := forest.traces.push (.start id kind attachedDescriptor driver)
        current := some id } = forest.merging := by
  funext other
  unfold merging
  rw [trace?_push]
  split
  · rename_i equal
    change id = other at equal
    rw [← equal, new]
    rfl
  · rfl

/-- A record which is not about merge points changes nothing of what is told about
them. -/
theorem Step.merging_eq
    {record : Jitlog.Record}
    (step : forest.Step record next)
    (other : ¬ record.isMerging) :
    next.merging = forest.merging := by
  cases step with
  | inputArguments => exact merging_modifyTrace_of_same (by intro _; rfl) (by intro _; rfl) _ _
  | opcodes => rfl
  | operation =>
      exact (merging_congr (traces_indexNext _ _ _ _ _)).trans
        (merging_modifyStage_of_same (by intro _; rfl)
          (fun stage => stage.merging_pushOperation _) _ _ _)
  | boundsAgain => rfl
  | bounds =>
      exact (merging_congr (traces_place _ _ _ _)).trans
        (merging_modifyTrace_of_same (by intro _; rfl) (by intro _; rfl) _ _)
  | codeIgnored => rfl
  | code =>
      exact merging_modifyStage_of_same (by intro _; rfl)
        (fun stage => stage.merging_attachCode _) _ _ _
  | @enterStage kind =>
      refine merging_modifyTrace_of_same (fun trace => ?_)
        (fun trace => trace.merging_enterStage kind) _ _
      unfold Trace.enterStage
      split <;> rfl
  | bridgeUnattached => rfl
  | stitchBridge => exact merging_link _ _ _
  | startTrace new => exact merging_push_start new
  | counter =>
      unfold addCounter
      split
      · rename_i point _
        apply merging_modifyTrace_of_same
        all_goals
          intro trace
          cases point.operation <;> rfl
      · rfl
  | abortTrace =>
      unfold Forest.abortTrace
      split
      · exact merging_modifyTrace_of_same (by intro _; rfl) (by intro _; rfl) _ _
      · rfl
  | sourceLines => rfl
  | redirectIgnored => rfl
  | redirect =>
      have led (origin target : TracePoint) :
          ((forest.unlink origin).link origin target).merging = forest.merging :=
        (merging_link _ _ _).trans (merging_unlink _ _)
      split
      · exact led _ _
      · exact (merging_congr (traces_registerDescriptor _ _ _)).trans (led _ _)
  | patch => rfl
  | layout | mergePoint | sharedStart => exact absurd rfl other

/-! ## Records about merge points -/

/-- A change of the active stage is seen in this stage of this trace only. -/
theorem stages_modifyStage
    {change : Stage → Stage}
    (same : ∀ stage, (change stage).kind = stage.kind)
    (active : forest.currentStage = .ok (trace, stage))
    (id : UInt64)
    (kind : StageKind) :
    ((forest.modifyStage trace.id stage.kind change).merging id).stages kind =
      if id = trace.id ∧ kind = stage.kind then (change stage).merging
      else (forest.merging id).stages kind := by
  obtain ⟨found, stands⟩ := found_of_currentStage active
  rw [merging_modifyStage found]
  by_cases here : id = trace.id
  · rw [if_pos here, here, merging_of_trace? found]
    refine (Trace.stageMerging_modifyStage same stands kind).trans ?_
    simp only [true_and]
    rfl
  · rw [if_neg here, if_neg fun both => here both.1]

/-- A change of the active stage which keeps its merge points does not touch those of any
trace, nor the source lines. -/
theorem points_modifyStage_of_same
    {change : Stage → Stage}
    (kept : ∀ stage, (change stage).mergePoints = stage.mergePoints)
    (active : forest.currentStage = .ok (trace, stage))
    (id : UInt64) :
    ((forest.modifyStage trace.id stage.kind change).merging id).points =
        (forest.merging id).points ∧
      ((forest.modifyStage trace.id stage.kind change).merging id).sourceLines =
        (forest.merging id).sourceLines := by
  obtain ⟨found, _⟩ := found_of_currentStage active
  rw [merging_modifyStage found]
  by_cases here : id = trace.id
  · rw [if_pos here, here, merging_of_trace? found]
    exact ⟨trace.mergePoints_modifyStage_of_same kept stage.kind, rfl⟩
  · rw [if_neg here]
    exact ⟨rfl, rfl⟩

/-- What the active stage tells about merge points. -/
theorem stages_of_currentStage (active : forest.currentStage = .ok (trace, stage)) :
    (forest.merging trace.id).stages stage.kind = stage.merging := by
  obtain ⟨found, stands⟩ := found_of_currentStage active
  rw [merging_of_trace? found]
  show (trace.stage? stage.kind).elim .empty Stage.merging = stage.merging
  rw [stands]
  rfl

/-! ## Appended merge points -/

/-- Append a merge point to a stage of a trace, with its source line. -/
def appendPoint (forest : Forest) (id : UInt64) (kind : StageKind) (values : FieldValues) :
    Forest :=
  (forest.noteLocation id { index := 0, values }).modifyStage id kind fun stage =>
    stage.pushMergePoint values

/-- When the source line of a merge point is noted, the same stage is active as before, with
the same merge points. -/
theorem exists_noted (active : forest.currentStage = .ok (trace, stage)) (point : MergePoint) :
    ∃ noted,
      (forest.noteLocation trace.id point).currentStage = .ok (noted, stage) ∧
      noted.id = trace.id ∧
      noted.stages = trace.stages ∧
      (∀ file line, line ∈ noted.sourceLines.getD file ∅ ↔
        line ∈ trace.sourceLines.getD file ∅ ∨ point.location? = some (file, line)) ∧
      ∀ id ≠ trace.id, (forest.noteLocation trace.id point).merging id = forest.merging id := by
  unfold noteLocation
  split
  · rename_i file line located
    refine ⟨trace.addSourceLine file line, currentStage_addSourceLine active file line, rfl, rfl,
      fun other number => ?_, fun id different => ?_⟩
    · rw [Trace.mem_sourceLines_addSourceLine, located, Option.some.injEq, Prod.mk.injEq]
    · rw [merging_modifyTrace (by intro _; rfl) (found_of_currentStage active).1, if_neg different]
  · rename_i unlocated
    exact ⟨trace, active, rfl, rfl, by simp [unlocated], fun _ _ => rfl⟩

/-- An appended merge point is the last one of its stage, and no other stage changes. -/
theorem stages_appendPoint
    (active : forest.currentStage = .ok (trace, stage))
    (values : FieldValues)
    (id : UInt64)
    (kind : StageKind) :
    ((forest.appendPoint trace.id stage.kind values).merging id).stages kind =
      if id = trace.id ∧ kind = stage.kind then
        { fields := stage.layout
          points := stage.mergePoints ++ [{ index := stage.nextMergePointIndex, values }] }
      else (forest.merging id).stages kind := by
  obtain ⟨noted, still, own, stages, _, others⟩ := exists_noted active { index := 0, values }
  have before : ((forest.noteLocation trace.id { index := 0, values }).merging id).stages =
      (forest.merging id).stages := by
    by_cases here : id = trace.id
    · have found := (found_of_currentStage still).1
      rw [own] at found
      rw [here, merging_of_trace? found, merging_of_trace? (found_of_currentStage active).1]
      show noted.stageMerging = trace.stageMerging
      funext kind
      unfold Trace.stageMerging Trace.stage?
      rw [stages]
    · rw [others id here]
  have changed := @stages_modifyStage _ noted stage (fun stage => stage.pushMergePoint values)
    (by intro _; rfl) still id kind
  rw [own, before] at changed
  rw [appendPoint, changed, Stage.merging, Stage.mergePoints_pushMergePoint]
  rfl

/-- An appended merge point is one of its trace, with its source line, and no other trace
changes. -/
theorem mem_appendPoint
    (active : forest.currentStage = .ok (trace, stage))
    (values : FieldValues)
    (id : UInt64) :
    (∀ point, point ∈ ((forest.appendPoint trace.id stage.kind values).merging id).points ↔
      point ∈ (forest.merging id).points ∨
        id = trace.id ∧ point = { index := stage.nextMergePointIndex, values }) ∧
    ∀ file line,
      line ∈ ((forest.appendPoint trace.id stage.kind values).merging id).sourceLines.getD file ∅ ↔
        line ∈ (forest.merging id).sourceLines.getD file ∅ ∨
          id = trace.id ∧ MergePoint.location? { index := 0, values } = some (file, line) := by
  obtain ⟨noted, still, own, stages, lines, others⟩ := exists_noted active { index := 0, values }
  obtain ⟨found, stands⟩ := found_of_currentStage still
  rw [own] at found
  rw [appendPoint, merging_modifyStage found]
  by_cases here : id = trace.id
  · rw [if_pos here, here, merging_of_trace? (found_of_currentStage active).1]
    refine ⟨fun point => ?_, fun file line => ?_⟩
    · refine (Trace.mem_mergePoints_pushMergePoint stands).trans ?_
      simp only [Trace.merging, Trace.mergePoints, stages, true_and]
    · refine (lines file line).trans ?_
      simp only [Trace.merging, true_and]
  · rw [if_neg here, others id here]
    simp [here]

end Forest
end RuntimeLog
