import Mathlib.Logic.Function.Basic
import RuntimeLog.Proofs.Forest.Steps
import RuntimeLog.Proofs.Jitlog.History

/-!
# Outlines of forests

The outline of a forest is what its indexes depend on: which traces there are,
which operations were logged in their stages, and the indexes themselves.  Most
steps of a forest do not change its outline; the others change little of it.
-/

namespace RuntimeLog

open Jitlog (LoggedOperation)

/-! ## Stages -/

namespace Stage

/-- An operation of a stage as it was logged for a trace. -/
def loggedAs (stage : Stage) (id : UInt64) (operation : Operation) : LoggedOperation :=
  { trace := id
    stage := stage.kind
    index := operation.index
    name := operation.name
    descriptor := operation.descriptor.map Descriptor.number }

/-- The operations of a stage as they were logged for a trace. -/
def logged (stage : Stage) (id : UInt64) : List LoggedOperation :=
  stage.operations.map (stage.loggedAs id)

/-- The last operation is the last one of the operations. -/
theorem lastOperation?_eq (stage : Stage) : stage.lastOperation? = stage.operations.getLast? := by
  unfold lastOperation? operations Journal.toList
  rw [List.getLast?_reverse]

@[simp] theorem operations_pushOperation (stage : Stage) (operation : Operation) :
    (stage.pushOperation operation).operations =
      stage.operations ++ [{ operation with index := stage.nextIndex }] := by
  simp [operations, pushOperation]

/-- An appended operation is logged last. -/
theorem logged_pushOperation (stage : Stage) (operation : Operation) (id : UInt64) :
    (stage.pushOperation operation).logged id =
      stage.logged id ++ [stage.loggedAs id { operation with index := stage.nextIndex }] := by
  unfold logged
  rw [operations_pushOperation, List.map_append]
  rfl

/-- Merge points do not change how operations were logged. -/
theorem logged_pushMergePoint (stage : Stage) (values : FieldValues) (id : UInt64) :
    (stage.pushMergePoint values).logged id = stage.logged id :=
  rfl

/-- Machine code does not change how operations were logged. -/
theorem logged_attachCode (stage : Stage) (code : CodeSnippet) (id : UInt64) :
    (stage.attachCode code).logged id = stage.logged id :=
  Journal.map_toList_modify (by intro _; rfl) stage.operationJournal

end Stage

/-! ## Traces -/

namespace Trace

/-- The operations of a stage as they were logged. -/
def logged (trace : Trace) (kind : StageKind) : List LoggedOperation :=
  (trace.stage? kind).elim [] fun stage => stage.logged trace.id

/-- What the indexes of a forest depend on in a trace. -/
structure Outline where
  activeKind : Option StageKind
  bounds : Option (UInt64 × UInt64)
  logged : StageKind → List LoggedOperation

/-- The outline of a trace. -/
def outline (trace : Trace) : Outline :=
  { activeKind := trace.activeKind
    bounds := trace.bounds
    logged := trace.logged }

variable {trace : Trace} {stage : Stage}

/-- A stage which is found is of the kind which was looked for. -/
theorem kind_of_stage? {kind : StageKind} (found : trace.stage? kind = some stage) :
    stage.kind = kind := by
  simpa using List.find?_some found

/-- A changed stage is found with its change, and the others as they were. -/
theorem stage?_modifyStage
    {change : Stage → Stage}
    (same : ∀ stage, (change stage).kind = stage.kind)
    (trace : Trace)
    (kind other : StageKind) :
    (trace.modifyStage kind change).stage? other =
      (trace.stage? other).map fun stage => if other = kind then change stage else stage :=
  Journal.find?_modify_key same trace.stages kind other

/-- A change of a stage which logs nothing does not change the outline. -/
theorem outline_modifyStage_of_same
    {change : Stage → Stage}
    (same : ∀ stage, (change stage).kind = stage.kind)
    (unlogged : ∀ stage id, (change stage).logged id = stage.logged id)
    (trace : Trace)
    (kind : StageKind) :
    (trace.modifyStage kind change).outline = trace.outline := by
  have kept : (trace.modifyStage kind change).logged = trace.logged := by
    funext other
    unfold logged
    rw [stage?_modifyStage same]
    cases trace.stage? other with
    | none => rfl
    | some stage =>
        simp only [Option.map_some, Option.elim_some]
        split
        · exact unlogged stage trace.id
        · rfl
  unfold outline
  rw [kept]
  rfl

/-- A change of a stage is seen in what was logged in this stage. -/
theorem logged_modifyStage
    {change : Stage → Stage}
    (same : ∀ stage, (change stage).kind = stage.kind)
    {kind : StageKind}
    (found : trace.stage? kind = some stage) :
    (trace.modifyStage kind change).logged =
      Function.update trace.logged kind ((change stage).logged trace.id) := by
  funext other
  unfold logged
  rw [stage?_modifyStage same]
  by_cases equal : other = kind
  · subst equal
    rw [found, Function.update_self]
    simp only [Option.map_some, Option.elim_some, if_true]
    rfl
  · rw [Function.update_of_ne equal]
    simp only [if_neg equal, Option.map_id']
    rfl

/-- An entered stage is the active one, and nothing is logged in a new one. -/
theorem outline_enterStage (trace : Trace) (kind : StageKind) :
    (trace.enterStage kind).outline = { trace.outline with activeKind := some kind } := by
  unfold enterStage
  split
  · rename_i again
    obtain ⟨rfl, active⟩ := again
    unfold outline
    rw [← active]
    rfl
  · cases found : trace.stage? kind with
    | some stage => rfl
    | none =>
        have kept :
            logged { trace with
              stages := trace.stages.push (.empty kind)
              activeKind := some kind } = trace.logged := by
          funext other
          unfold logged stage? Journal.find? Journal.push
          rw [List.find?_cons]
          split
          · rename_i equal
            have same : kind = other := by simpa [Stage.empty] using equal
            subst same
            rw [show trace.stages.newestFirst.find? (fun stage => stage.kind == kind) = none
              from found]
            rfl
          · rfl
        unfold outline
        rw [kept]

end Trace

/-! ## Forests -/

namespace Forest

/-- The ids of the traces, in the order in which they were started. -/
def ids (forest : Forest) : List UInt64 :=
  forest.traces.toList.map Trace.id

/-- What the indexes of a forest depend on, and the indexes. -/
structure Outline where
  ids : List UInt64
  traces : UInt64 → Option Trace.Outline
  current : Option UInt64
  opcodes : Option OpcodeNames
  byStart : AddressMap UInt64
  descriptorPoints : AddressMap TracePoint
  labels : AddressMap TracePoint
  jumps : AddressMap TracePoint
  counterPoints : AddressMap TracePoint

/-- The outline of a forest. -/
def outline (forest : Forest) : Outline :=
  { ids := forest.ids
    traces := fun id => (forest.trace? id).map Trace.outline
    current := forest.current
    opcodes := forest.opcodes
    byStart := forest.byStart
    descriptorPoints := forest.descriptorPoints
    labels := forest.labels
    jumps := forest.jumps
    counterPoints := forest.counterPoints }

variable {forest next : Forest} {trace : Trace}

/-- Forests with the same outline have the same traces. -/
theorem isSome_trace?_congr (same : next.outline = forest.outline) (id : UInt64) :
    (next.trace? id).isSome = (forest.trace? id).isSome := by
  have traces := congrArg (fun outline => (outline.traces id).isSome) same
  simpa [outline] using traces

/-- The traces which are found are those with the ids of the forest. -/
theorem isSome_trace? {id : UInt64} : (forest.trace? id).isSome ↔ id ∈ forest.ids := by
  unfold trace? Journal.find? ids Journal.toList
  simp

/-- The active stage is the one which is found in the current trace. -/
theorem found_of_currentStage
    {stage : Stage}
    (active : forest.currentStage = .ok (trace, stage)) :
    forest.trace? trace.id = some trace ∧ trace.stage? stage.kind = some stage := by
  obtain ⟨current, inside⟩ := active_of_currentStage active
  obtain ⟨kind, _, found⟩ := Option.bind_eq_some_iff.mp inside
  exact ⟨(id_of_currentTrace current).2, (Trace.kind_of_stage? found).symm ▸ found⟩

/-- A changed trace is found with its change, and the others as they were. -/
theorem trace?_modifyTrace
    {change : Trace → Trace}
    (same : ∀ trace, (change trace).id = trace.id)
    (forest : Forest)
    (id other : UInt64) :
    (forest.modifyTrace id change).trace? other =
      (forest.trace? other).map fun trace => if other = id then change trace else trace :=
  Journal.find?_modify_key same forest.traces id other

/-- A change of a trace which keeps some view of it is not seen in this view of the
forest. -/
theorem map_trace?_modifyTrace
    {β : Type}
    {view : Trace → β}
    {change : Trace → Trace}
    (same : ∀ trace, (change trace).id = trace.id)
    (kept : ∀ trace, view (change trace) = view trace)
    (forest : Forest)
    (id other : UInt64) :
    ((forest.modifyTrace id change).trace? other).map view = (forest.trace? other).map view := by
  rw [trace?_modifyTrace same, Option.map_map]
  congr 1
  funext trace
  simp only [Function.comp_apply]
  split
  · exact kept trace
  · rfl

/-- A trace which is put behind the others is the one with its id. -/
theorem trace?_push (forest : Forest) (trace : Trace) (current : Option UInt64) (id : UInt64) :
    trace? { forest with traces := forest.traces.push trace, current } id =
      if trace.id = id then some trace else forest.trace? id := by
  unfold trace? Journal.find? Journal.push
  rw [List.find?_cons]
  by_cases equal : trace.id = id
  · rw [if_pos equal, beq_iff_eq.mpr equal]
  · rw [if_neg equal, beq_false_of_ne equal]

/-- A change of a trace does not change the list of the traces. -/
theorem ids_modifyTrace
    {change : Trace → Trace}
    (same : ∀ trace, (change trace).id = trace.id)
    (forest : Forest)
    (id : UInt64) :
    (forest.modifyTrace id change).ids = forest.ids :=
  Journal.map_toList_modify same forest.traces

/-- A change of a trace which keeps its outline does not change the outline of
the forest. -/
theorem outline_modifyTrace_of_same
    {change : Trace → Trace}
    (same : ∀ trace, (change trace).id = trace.id)
    (unchanged : ∀ trace, (change trace).outline = trace.outline)
    (forest : Forest)
    (id : UInt64) :
    (forest.modifyTrace id change).outline = forest.outline := by
  have kept : (fun other => ((forest.modifyTrace id change).trace? other).map Trace.outline) =
      fun other => (forest.trace? other).map Trace.outline := by
    funext other
    exact map_trace?_modifyTrace same unchanged forest id other
  unfold outline
  rw [kept, ids_modifyTrace same]
  rfl

/-- A change of a trace is seen in the outline of this trace. -/
theorem outline_modifyTrace
    {change : Trace → Trace}
    (same : ∀ trace, (change trace).id = trace.id)
    {id : UInt64}
    (found : forest.trace? id = some trace) :
    (forest.modifyTrace id change).outline =
      { forest.outline with
        traces := Function.update forest.outline.traces id (some (change trace).outline) } := by
  have changed : (fun other => ((forest.modifyTrace id change).trace? other).map Trace.outline) =
      Function.update forest.outline.traces id (some (change trace).outline) := by
    funext other
    rw [trace?_modifyTrace same]
    by_cases equal : other = id
    · subst equal
      rw [found, Function.update_self]
      simp
    · rw [Function.update_of_ne equal]
      simp only [if_neg equal, Option.map_id']
      rfl
  unfold outline
  rw [changed, ids_modifyTrace same]
  rfl

/-- Links are not part of an outline. -/
theorem outline_modifyLinks
    (linksOut linksIn : Trace → Journal TraceLink)
    (forest : Forest)
    (id : UInt64) :
    (forest.modifyTrace id fun trace =>
      { trace with linksOut := linksOut trace, linksIn := linksIn trace }).outline =
      forest.outline :=
  outline_modifyTrace_of_same (by intro _; rfl) (by intro _; rfl) _ _

@[simp] theorem outline_link (forest : Forest) (origin target : TracePoint) :
    (forest.link origin target).outline = forest.outline := by
  apply link_preserves fun later => later.outline = forest.outline
  case kept => exact fun _ _ _ _ same => (outline_modifyLinks _ _ _ _).trans same
  case before => rfl

@[simp] theorem outline_unlink (forest : Forest) (origin : TracePoint) :
    (forest.unlink origin).outline = forest.outline := by
  apply unlink_preserves fun later => later.outline = forest.outline
  case kept => exact fun _ _ _ _ same => (outline_modifyLinks _ _ _ _).trans same
  case before => rfl

@[simp] theorem outline_addCounter
    (forest : Forest)
    (number : UInt64)
    (kind : UInt8)
    (count : UInt64) :
    (forest.addCounter number kind count).outline = forest.outline := by
  unfold addCounter
  split
  · rename_i point _
    apply outline_modifyTrace_of_same
    all_goals
      intro trace
      cases point.operation <;> rfl
  · rfl

@[simp] theorem outline_abortTrace (forest : Forest) (id : UInt64) :
    (forest.abortTrace id).outline = forest.outline := by
  unfold abortTrace
  split
  · exact outline_modifyTrace_of_same (by intro _; rfl) (by intro _; rfl) _ _
  · rfl

@[simp] theorem outline_noteLocation (forest : Forest) (id : UInt64) (point : MergePoint) :
    (forest.noteLocation id point).outline = forest.outline := by
  unfold noteLocation
  split
  · exact outline_modifyTrace_of_same (by intro _; rfl) (by intro _; rfl) _ _
  · rfl

/-- A change of a stage which logs nothing does not change the outline. -/
theorem outline_modifyStage_of_same
    {change : Stage → Stage}
    (same : ∀ stage, (change stage).kind = stage.kind)
    (unlogged : ∀ stage id, (change stage).logged id = stage.logged id)
    (forest : Forest)
    (id : UInt64)
    (kind : StageKind) :
    (forest.modifyStage id kind change).outline = forest.outline :=
  outline_modifyTrace_of_same (by intro _; rfl)
    (fun trace => trace.outline_modifyStage_of_same same unlogged kind) forest id

/-- A record which is not about traces, operations or descriptors does not change
the outline. -/
theorem Step.outline_of_isAside
    {record : Jitlog.Record}
    (step : forest.Step record next)
    (aside : record.isAside) :
    next.outline = forest.outline := by
  cases step with
  | inputArguments => exact outline_modifyTrace_of_same (by intro _; rfl) (by intro _; rfl) _ _
  | codeIgnored => rfl
  | code =>
      exact outline_modifyStage_of_same (by intro _; rfl)
        (fun stage id => stage.logged_attachCode _ id) _ _ _
  | bridgeUnattached => rfl
  | stitchBridge => exact outline_link _ _ _
  | counter => exact outline_addCounter _ _ _ _
  | layout => exact outline_modifyStage_of_same (by intro _; rfl) (by intro _ _; rfl) _ _ _
  | mergePoint =>
      exact (outline_modifyStage_of_same (by intro _; rfl)
        (fun stage id => stage.logged_pushMergePoint _ id) _ _ _).trans (outline_noteLocation _ _ _)
  | sharedStart => exact outline_modifyStage_of_same (by intro _; rfl) (by intro _ _; rfl) _ _ _
  | abortTrace => exact outline_abortTrace _ _
  | sourceLines => rfl
  | patch => rfl
  | opcodes | operation | boundsAgain | bounds | enterStage | startTrace | redirectIgnored
  | redirect => cases aside

/-! ## Other steps -/

/-- A started trace is the current one, and nothing was logged for it. -/
theorem outline_push_start
    {id attachedDescriptor : UInt64}
    {kind : TraceKind}
    {driver : Option String} :
    outline { forest with
        traces := forest.traces.push (.start id kind attachedDescriptor driver)
        current := some id } =
      { forest.outline with
        ids := forest.outline.ids ++ [id]
        traces := Function.update forest.outline.traces id
          (some { activeKind := none, bounds := none, logged := fun _ => [] })
        current := some id } := by
  have added : (fun other =>
        (trace? { forest with
          traces := forest.traces.push (.start id kind attachedDescriptor driver)
          current := some id } other).map Trace.outline) =
      Function.update forest.outline.traces id
        (some { activeKind := none, bounds := none, logged := fun _ => [] }) := by
    funext other
    rw [trace?_push]
    by_cases equal : other = id
    · subst equal
      rw [Function.update_self]
      simp only [Trace.start, if_true]
      rfl
    · rw [Function.update_of_ne equal, if_neg (by exact Ne.symm equal)]
      rfl
  unfold outline
  rw [added]
  simp only [ids, Journal.toList_push, List.map_append]
  rfl

/-- Entering a stage of a trace makes it the active one. -/
theorem outline_enterStage
    {id : UInt64}
    (found : forest.trace? id = some trace)
    (kind : StageKind) :
    (forest.modifyTrace id fun trace => trace.enterStage kind).outline =
      { forest.outline with
        traces := Function.update forest.outline.traces id
          (some { trace.outline with activeKind := some kind }) } := by
  have same (trace : Trace) : (trace.enterStage kind).id = trace.id := by
    unfold Trace.enterStage
    split <;> rfl
  rw [outline_modifyTrace same found, trace.outline_enterStage]

/-- The bounds of a placed trace are set, and its start is indexed. -/
theorem outline_place
    {id : UInt64}
    (found : forest.trace? id = some trace)
    (start finish : UInt64) :
    (forest.place id start finish).outline =
      { forest.outline with
        traces := Function.update forest.outline.traces id
          (some { trace.outline with bounds := some (start, finish) })
        byStart := forest.byStart.insert start id } := by
  have bounded : (forest.modifyTrace id fun trace =>
        { trace with bounds := some (start, finish) }).outline =
      { forest.outline with
        traces := Function.update forest.outline.traces id
          (some { trace.outline with bounds := some (start, finish) }) } :=
    outline_modifyTrace (by intro _; rfl) found
  have placed : outline
      { forest.modifyTrace id (fun trace => { trace with bounds := some (start, finish) }) with
        byStart := forest.byStart.insert start id } =
      { (forest.modifyTrace id fun trace =>
          { trace with bounds := some (start, finish) }).outline with
        byStart := forest.byStart.insert start id } := rfl
  rw [bounded] at placed
  unfold place
  dsimp only
  split
  · split
    · exact placed
    · exact placed
  · exact placed

/-- An appended operation is logged last in its stage. -/
theorem outline_pushOperation
    {id : UInt64}
    {stage : Stage}
    (found : forest.trace? id = some trace)
    (stands : trace.stage? stage.kind = some stage)
    (operation : Operation) :
    (forest.modifyStage id stage.kind fun inner => inner.pushOperation operation).outline =
      { forest.outline with
        traces := Function.update forest.outline.traces id
          (some { trace.outline with
            logged := Function.update trace.outline.logged stage.kind
              (trace.outline.logged stage.kind ++
                [stage.loggedAs trace.id { operation with index := stage.nextIndex }]) }) } := by
  have before : trace.outline.logged stage.kind = stage.logged trace.id := by
    simp [Trace.outline, Trace.logged, stands]
  have after : (trace.modifyStage stage.kind fun inner => inner.pushOperation operation).logged =
      Function.update trace.outline.logged stage.kind
        (trace.outline.logged stage.kind ++
          [stage.loggedAs trace.id { operation with index := stage.nextIndex }]) := by
    rw [before, ← stage.logged_pushOperation]
    exact Trace.logged_modifyStage (by intro _; rfl) stands
  have appended :
      (trace.modifyStage stage.kind fun inner => inner.pushOperation operation).outline =
      { trace.outline with
        logged := Function.update trace.outline.logged stage.kind
          (trace.outline.logged stage.kind ++
            [stage.loggedAs trace.id { operation with index := stage.nextIndex }]) } := by
    rw [← after]
    rfl
  rw [← appended]
  exact outline_modifyTrace (by intro _; rfl) found

/-- A registered descriptor changes the index of the descriptors only. -/
theorem outline_registerDescriptor
    (forest : Forest)
    (descriptor : UInt64)
    (point : TracePoint) :
    (forest.registerDescriptor descriptor point).outline =
      { forest.outline with
        descriptorPoints := (forest.registerDescriptor descriptor point).descriptorPoints } := by
  unfold registerDescriptor
  split <;> rfl

/-- A descriptor is registered unless it was before. -/
theorem getElem?_registerDescriptor
    (forest : Forest)
    (descriptor other : UInt64)
    (point : TracePoint) :
    (forest.registerDescriptor descriptor point).descriptorPoints[other]? =
      forest.descriptorPoints[other]?.or (if descriptor = other then some point else none) := by
  unfold registerDescriptor
  split
  · rename_i kept found
    by_cases equal : descriptor = other
    · subst equal
      rw [if_pos rfl]
      exact found.trans (by rw [found]; rfl)
    · simp [report, equal]
  · rename_i missing
    rw [Std.ExtTreeMap.getElem?_insert]
    by_cases equal : descriptor = other
    · subst equal
      simp [missing]
    · simp [equal]

/-- A descriptor of an operation changes the indexes of operations only. -/
theorem outline_indexDescriptor
    (forest : Forest)
    (descriptor : UInt64)
    (name : String)
    (point : TracePoint) :
    (forest.indexDescriptor descriptor name point).outline =
      { forest.outline with
        descriptorPoints := (forest.indexDescriptor descriptor name point).descriptorPoints
        labels := (forest.indexDescriptor descriptor name point).labels
        jumps := (forest.indexDescriptor descriptor name point).jumps
        counterPoints := (forest.indexDescriptor descriptor name point).counterPoints } := by
  unfold indexDescriptor registerDescriptor
  dsimp only
  split <;> split
  all_goals first | rfl | (split <;> rfl)

/-- What is indexed for an operation changes the indexes of operations only. -/
theorem outline_indexNext
    (forest : Forest)
    (point : TracePoint)
    (name : String)
    (descriptor : Option UInt64)
    (counted : Option Descriptor) :
    (forest.indexNext point name descriptor counted).outline =
      { forest.outline with
        descriptorPoints := (forest.indexNext point name descriptor counted).descriptorPoints
        labels := (forest.indexNext point name descriptor counted).labels
        jumps := (forest.indexNext point name descriptor counted).jumps
        counterPoints := (forest.indexNext point name descriptor counted).counterPoints } := by
  cases descriptor with
  | none => cases counted <;> rfl
  | some number =>
      have indexed := outline_indexDescriptor forest number name point
      cases counted with
      | none => exact indexed
      | some counted =>
          have counting : outline { forest.indexDescriptor number name point with
                counterPoints := (forest.indexDescriptor number name point).counterPoints.insert
                  counted.number point } =
              { (forest.indexDescriptor number name point).outline with
                counterPoints := (forest.indexDescriptor number name point).counterPoints.insert
                  counted.number point } := rfl
          rw [indexed] at counting
          exact counting

/-- The descriptor of an operation is registered unless it was before. -/
theorem getElem?_descriptorPoints_indexNext
    (forest : Forest)
    (point : TracePoint)
    (name : String)
    (descriptor : Option UInt64)
    (counted : Option Descriptor)
    (other : UInt64) :
    (forest.indexNext point name descriptor counted).descriptorPoints[other]? =
      forest.descriptorPoints[other]?.or
        (if descriptor = some other then some point else none) := by
  have uncounted : (forest.indexNext point name descriptor counted).descriptorPoints =
      (forest.indexNext point name descriptor none).descriptorPoints := by
    cases counted <;> rfl
  rw [uncounted]
  cases descriptor with
  | none => simp [indexNext]
  | some number =>
      have registered : (forest.indexNext point name (some number) none).descriptorPoints =
          (forest.registerDescriptor number point).descriptorPoints := by
        unfold indexNext indexDescriptor
        dsimp only
        split
        · rfl
        · split <;> rfl
      rw [registered, getElem?_registerDescriptor]
      simp only [Option.some.injEq]

/-- An operation with a descriptor is indexed as a label if it is one. -/
theorem labels_indexNext
    (forest : Forest)
    (point : TracePoint)
    (name : String)
    (descriptor : UInt64)
    (counted : Option Descriptor) :
    (forest.indexNext point name (some descriptor) counted).labels =
      if name = labelName then forest.labels.insertIfNew descriptor point else forest.labels := by
  have uncounted : (forest.indexNext point name (some descriptor) counted).labels =
      (forest.indexDescriptor descriptor name point).labels := by
    cases counted <;> rfl
  rw [uncounted]
  unfold indexDescriptor registerDescriptor
  dsimp only
  split
  · split <;> rfl
  · split <;> split <;> rfl

/-- An operation with a descriptor is indexed as a jump if it is one. -/
theorem jumps_indexNext
    (forest : Forest)
    (point : TracePoint)
    (name : String)
    (descriptor : UInt64)
    (counted : Option Descriptor) :
    (forest.indexNext point name (some descriptor) counted).jumps =
      if name = jumpName then forest.jumps.insertIfNew descriptor point else forest.jumps := by
  have uncounted : (forest.indexNext point name (some descriptor) counted).jumps =
      (forest.indexDescriptor descriptor name point).jumps := by
    cases counted <;> rfl
  rw [uncounted]
  unfold indexDescriptor registerDescriptor
  dsimp only
  split
  · rename_i label
    have other : ¬ name = jumpName := by
      rw [label]
      decide
    rw [if_neg other]
    split <;> rfl
  · split <;> split <;> rfl

/-- The place of an operation is indexed as a label unless another one was
before. -/
theorem getElem?_labels_indexNext
    (forest : Forest)
    (point : TracePoint)
    (name : String)
    (descriptor : Option UInt64)
    (counted : Option Descriptor)
    (other : UInt64) :
    (forest.indexNext point name descriptor counted).labels[other]? =
      forest.labels[other]?.or
        (if name = labelName ∧ descriptor = some other then some point else none) := by
  cases descriptor with
  | none => cases counted <;> simp [indexNext]
  | some number =>
      rw [labels_indexNext]
      split
      · rename_i label
        simp [label, AddressMap.getElem?_insertIfNew]
      · rename_i unlabelled
        simp [unlabelled]

/-- The place of an operation is indexed as a jump unless another one was
before. -/
theorem getElem?_jumps_indexNext
    (forest : Forest)
    (point : TracePoint)
    (name : String)
    (descriptor : Option UInt64)
    (counted : Option Descriptor)
    (other : UInt64) :
    (forest.indexNext point name descriptor counted).jumps[other]? =
      forest.jumps[other]?.or
        (if name = jumpName ∧ descriptor = some other then some point else none) := by
  cases descriptor with
  | none => cases counted <;> simp [indexNext]
  | some number =>
      rw [jumps_indexNext]
      split
      · rename_i jump
        simp [jump, AddressMap.getElem?_insertIfNew]
      · rename_i other
        simp [other]

/-- The last operation which counts the passes of a descriptor is indexed for it. -/
theorem getElem?_counterPoints_indexNext
    (forest : Forest)
    (point : TracePoint)
    (name : String)
    (descriptor : Option UInt64)
    (counted : Option Descriptor)
    (other : UInt64) :
    (forest.indexNext point name descriptor counted).counterPoints[other]? =
      if counted.map Descriptor.number = some other then some point
      else forest.counterPoints[other]? := by
  have indexed (number : UInt64) :
      (forest.indexDescriptor number name point).counterPoints = forest.counterPoints := by
    unfold indexDescriptor registerDescriptor
    dsimp only
    split <;> split
    all_goals first | rfl | (split <;> rfl)
  cases counted with
  | none =>
      cases descriptor with
      | none => simp [indexNext]
      | some number => simp [indexNext, indexed]
  | some counted =>
      cases descriptor with
      | none => simp [indexNext, Std.ExtTreeMap.getElem?_insert]
      | some number => simp [indexNext, indexed, Std.ExtTreeMap.getElem?_insert]

end Forest
end RuntimeLog
