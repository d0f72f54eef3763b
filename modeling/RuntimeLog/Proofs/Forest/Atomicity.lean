import RuntimeLog.Forest.Update
import RuntimeLog.Proofs.Update

/-!
# Atomic updates of a forest

No update of a forest has a partial effect.  Nor does any touch the account
which the reader of the log keeps: the header, the number of records, the offset
behind the last one and the fault.
-/

namespace RuntimeLog
namespace Forest

/-- The account of a log which its reader keeps. -/
structure Account where
  header : Header
  time : Nat
  decodedUntil : Nat
  fault : Option Fault

/-- The account in a forest. -/
def account (forest : Forest) : Account :=
  { header := forest.header
    time := forest.time
    decodedUntil := forest.decodedUntil
    fault := forest.fault }

variable {forest : Forest}

/-! ## Changes of links -/

section Links

variable (property : Forest → Prop)

/-- Whatever is kept by all changes of the links of a trace is kept by a new link. -/
theorem link_preserves
    (kept : ∀ (linksOut linksIn : Trace → Journal TraceLink) (forest : Forest) (id : UInt64),
      property forest →
        property (forest.modifyTrace id fun trace =>
          { trace with linksOut := linksOut trace, linksIn := linksIn trace }))
    (before : property forest)
    (origin target : TracePoint) :
    property (forest.link origin target) :=
  kept Trace.linksOut _ _ _ (kept _ Trace.linksIn _ _ before)

/-- It is also kept when links are dropped. -/
theorem unlink_preserves
    (kept : ∀ (linksOut linksIn : Trace → Journal TraceLink) (forest : Forest) (id : UInt64),
      property forest →
        property (forest.modifyTrace id fun trace =>
          { trace with linksOut := linksOut trace, linksIn := linksIn trace }))
    (before : property forest)
    (origin : TracePoint) :
    property (forest.unlink origin) := by
  have dropped (links : List TraceLink) {forest : Forest} (before : property forest) :
      property (links.foldl dropIncoming forest) := by
    induction links generalizing forest with
    | nil => exact before
    | cons link links inductionHypothesis =>
        exact inductionHypothesis (kept Trace.linksOut _ _ _ before)
  unfold unlink
  split
  · exact before
  · exact dropped _ (kept _ Trace.linksIn _ _ before)

end Links

/-! ## Parts of updates -/

@[simp] theorem account_report (forest : Forest) (anomaly : Anomaly) :
    (forest.report anomaly).account = forest.account := rfl

@[simp] theorem account_modifyTrace (forest : Forest) (id : UInt64) (change : Trace → Trace) :
    (forest.modifyTrace id change).account = forest.account := rfl

@[simp] theorem account_modifyStage
    (forest : Forest)
    (id : UInt64)
    (kind : StageKind)
    (change : Stage → Stage) :
    (forest.modifyStage id kind change).account = forest.account := rfl

@[simp] theorem account_link (forest : Forest) (origin target : TracePoint) :
    (forest.link origin target).account = forest.account := rfl

@[simp] theorem account_registerDescriptor
    (forest : Forest)
    (descriptor : UInt64)
    (point : TracePoint) :
    (forest.registerDescriptor descriptor point).account = forest.account := by
  unfold registerDescriptor
  split <;> rfl

@[simp] theorem account_indexDescriptor
    (forest : Forest)
    (descriptor : UInt64)
    (name : String)
    (point : TracePoint) :
    (forest.indexDescriptor descriptor name point).account = forest.account := by
  have registered := account_registerDescriptor forest descriptor point
  unfold indexDescriptor
  dsimp only
  split
  · exact registered
  · split <;> exact registered

@[simp] theorem account_unlink (forest : Forest) (origin : TracePoint) :
    (forest.unlink origin).account = forest.account := by
  apply unlink_preserves fun later => later.account = forest.account
  case kept => exact fun _ _ _ _ same => same
  case before => rfl

@[simp] theorem account_addCounter (forest : Forest) (number : UInt64) (kind : UInt8)
    (count : UInt64) :
    (forest.addCounter number kind count).account = forest.account := by
  unfold addCounter
  split <;> rfl

@[simp] theorem account_abortTrace (forest : Forest) (id : UInt64) :
    (forest.abortTrace id).account = forest.account := by
  unfold abortTrace
  split <;> rfl

/-! ## Traces and stages -/

/-- Opcodes which were declared already are left alone. -/
theorem atomic_declareOpcodes (names : List (UInt16 × String)) :
    (declareOpcodes names).Atomic account := by
  apply Update.looks_get.bind
  intro forest
  split
  · exact Update.atomic_throw _
  · exact Update.atomic_modify fun _ => rfl

/-- A trace which cannot be started is not the current one either. -/
theorem atomic_startTrace
    (id : UInt64)
    (kindName : String)
    (attachedDescriptor : UInt64)
    (driver : Option String) :
    (startTrace id kindName attachedDescriptor driver).Atomic account := by
  unfold startTrace
  split
  · exact Update.atomic_throw _
  · apply Update.looks_get.bind
    intro forest
    split
    · exact Update.atomic_throw _
    · exact Update.atomic_modify fun _ => rfl

/-- A stage of another trace than the current one is not entered. -/
theorem atomic_enterStage (id : UInt64) (kind : StageKind) :
    (enterStage id kind).Atomic account := by
  apply Update.looks_get.bind
  intro forest
  dsimp only
  split
  · refine (Update.looks_look currentTrace).bind fun trace => ?_
    exact Update.atomic_modify fun _ => rfl
  · exact Update.atomic_throw _

/-- Without a current trace there are no input arguments to set. -/
theorem atomic_setInputArguments (list : String) :
    (setInputArguments list).Atomic account := by
  refine (Update.looks_look currentTrace).bind fun trace => ?_
  exact Update.atomic_modify fun _ => rfl

/-! ## Operations -/

/-- An operation is appended and indexed, or neither. -/
theorem atomic_addOperation
    (offset : Nat)
    (opcode : UInt16)
    (arguments : String)
    (failArguments : Option String)
    (descriptor : Option UInt64) :
    (addOperation offset opcode arguments failArguments descriptor).Atomic account := by
  apply Update.looks_get.bind
  intro forest
  split
  · exact Update.atomic_throw _
  · refine (Update.looks_look currentStage).bind fun ⟨trace, stage⟩ => ?_
    apply Update.Makes.atomic
    refine .bind (Update.makes_modify fun _ => rfl) fun _ => ?_
    dsimp only
    have indexes (number : UInt64) (name : String) (point : TracePoint) :
        Update.Makes account
          (modify fun forest => forest.indexDescriptor number name point : Update Forest Unit) :=
      Update.makes_modify fun forest => account_indexDescriptor forest number name point
    split
    · refine .bind (indexes _ _ _) fun _ => ?_
      split
      · exact Update.makes_modify fun _ => rfl
      · exact Update.makes_pure ()
    · split
      · exact Update.makes_modify fun _ => rfl
      · exact Update.makes_pure ()

/-- The bounds of a trace are set and indexed, or neither. -/
theorem atomic_setBounds (start finish : UInt64) :
    (setBounds start finish).Atomic account := by
  refine (Update.looks_look currentTrace).bind fun trace => ?_
  split
  · exact Update.atomic_modify fun _ => rfl
  · apply Update.Makes.atomic
    refine .bind (Update.makes_modify fun _ => rfl) fun _ => ?_
    apply Update.Makes.bind Update.makes_get
    intro forest
    refine .bind (Update.makes_modify fun _ => rfl) fun _ => ?_
    split
    · split
      · exact Update.makes_pure ()
      · exact Update.makes_modify fun _ => rfl
    · exact Update.makes_pure ()

/-- Machine code is only attached in an active stage. -/
theorem atomic_attachCode (code : CodeSnippet) : (attachCode code).Atomic account := by
  refine (Update.looks_look currentStage).bind fun ⟨trace, stage⟩ => ?_
  dsimp only
  split
  · exact Update.atomic_modify fun _ => rfl
  · split <;> exact Update.atomic_modify fun _ => rfl

/-! ## Merge points -/

/-- A layout is only declared in an active stage. -/
theorem atomic_declareLayout (declarations : List FieldDeclaration) :
    (declareLayout declarations).Atomic account := by
  refine (Update.looks_look currentStage).bind fun ⟨trace, stage⟩ => ?_
  exact Update.atomic_modify fun _ => rfl

/-- A shared start of a field which has none is not declared. -/
theorem atomic_declareSharedStart (field : UInt8) (start : String) :
    (declareSharedStart field start).Atomic account := by
  refine (Update.looks_look currentStage).bind fun ⟨trace, stage⟩ => ?_
  dsimp only
  split
  · exact Update.atomic_throw _
  · split
    · exact Update.atomic_throw _
    · exact Update.atomic_modify fun _ => rfl

/-- Where a layout is declared there is an active stage. -/
theorem exists_stage_of_currentLayout
    {layout : List MergeField}
    (declared : forest.currentLayout = .ok layout) :
    ∃ trace stage, forest.currentStage = .ok (trace, stage) := by
  cases found : forest.currentStage with
  | error error =>
      unfold currentLayout at declared
      rw [found] at declared
      cases declared
  | ok place => exact ⟨place.1, place.2, rfl⟩

/-- The trace of the active stage is the current one. -/
theorem active_of_currentStage
    {trace : Trace}
    {stage : Stage}
    (found : forest.currentStage = .ok (trace, stage)) :
    forest.currentTrace = .ok trace ∧ trace.activeStage? = some stage := by
  cases current : forest.currentTrace with
  | error error =>
      unfold currentStage at found
      rw [current] at found
      cases found
  | ok other =>
      unfold currentStage at found
      rw [current] at found
      simp only [bind, Except.bind] at found
      cases active : other.activeStage? with
      | none =>
          rw [active] at found
          cases found
      | some inside =>
          rw [active] at found
          cases found
          exact ⟨rfl, active⟩

/-- The current trace after a change of it. -/
theorem currentTrace_modifyTrace
    {trace : Trace}
    {change : Trace → Trace}
    (current : forest.currentTrace = .ok trace)
    (same : ∀ trace, (change trace).id = trace.id) :
    (forest.modifyTrace trace.id change).currentTrace = .ok (change trace) := by
  unfold currentTrace at current
  split at current
  · cases current
  · rename_i id started
    split at current
    · cases current
    · rename_i known
      cases current
      have own : trace.id = id := by simpa using List.find?_some known
      have changed : (forest.modifyTrace id change).trace? id = some (change trace) := by
        have kept : ∀ entry : Trace, entry.id == id → (change entry).id == id := by
          intro entry chosen
          rw [same]
          exact chosen
        unfold trace?
        rw [modifyTrace, Journal.find?_modify kept, ← trace?, known]
        rfl
      have still : (forest.modifyTrace id change).current = some id := started
      rw [own, currentTrace, still]
      simp only [changed]

/-- To note a source line in the current trace leaves its stage active. -/
theorem currentStage_addSourceLine
    {trace : Trace}
    {stage : Stage}
    (found : forest.currentStage = .ok (trace, stage))
    (file : String)
    (line : UInt64) :
    (forest.modifyTrace trace.id fun trace => trace.addSourceLine file line).currentStage =
      .ok (trace.addSourceLine file line, stage) := by
  obtain ⟨current, active⟩ := active_of_currentStage found
  have still : (trace.addSourceLine file line).activeStage? = some stage := active
  have noted :
      (forest.modifyTrace trace.id fun trace => trace.addSourceLine file line).currentTrace =
        .ok (trace.addSourceLine file line) :=
    currentTrace_modifyTrace current fun _ => rfl
  unfold currentStage
  rw [noted]
  simp only [bind, Except.bind, still]
  rfl

/-- A merge point is appended with its source line, or neither. -/
theorem atomic_addMergePoint (written : List WrittenValue) :
    (addMergePoint written).Atomic account := by
  intro forest
  unfold addMergePoint
  rw [EStateM.run_bind, Update.run_look]
  cases declared : forest.currentLayout with
  | error error => rfl
  | ok layout =>
      simp only
      rw [EStateM.run_bind, Update.run_look]
      cases resolved : resolveFrom 0 layout written with
      | error error => rfl
      | ok values =>
          obtain ⟨trace, stage, found⟩ := exists_stage_of_currentLayout declared
          obtain ⟨current, active⟩ := active_of_currentStage found
          simp only
          rw [EStateM.run_bind, Update.run_look, current]
          simp only
          let point : MergePoint := { index := 0, values := MergePoint.valuesOf values }
          cases located : point.location? with
          | none =>
              rw [EStateM.run_bind, Update.run_look, found]
              rfl
          | some place =>
              -- the only change in front of a look-up which may fail
              have still := currentStage_addSourceLine found place.1 place.2
              simp only
              rw [EStateM.run_bind, EStateM.run_modify]
              simp only
              rw [EStateM.run_bind, Update.run_look, still]
              rfl

/-! ## Links, counters and the rest -/

/-- A bridge to an unknown address is not attached. -/
theorem atomic_stitchBridge (descriptor address : UInt64) :
    (stitchBridge descriptor address).Atomic account := by
  apply Update.looks_get.bind
  intro forest
  split
  · exact Update.atomic_throw _
  · apply Update.looks_get.bind
    intro forest
    split
    · exact Update.atomic_modify fun _ => rfl
    · exact Update.atomic_modify fun _ => rfl

/-- An operation which cannot be led to another trace keeps its links. -/
theorem atomic_redirect (before after target : UInt64) :
    (redirect before after target).Atomic account := by
  apply Update.looks_get.bind
  intro forest
  split
  · exact Update.atomic_throw _
  · apply Update.looks_get.bind
    intro forest
    split
    · exact Update.atomic_modify fun _ => rfl
    · apply Update.Makes.atomic
      refine .bind (Update.makes_modify fun _ => by simp) fun _ => ?_
      split
      · exact Update.makes_pure ()
      · exact Update.makes_modify fun _ => by simp

end Forest
end RuntimeLog
