import RuntimeLog.Proofs.Forest.Ties

/-!
# Machine code is kept

The bounds of a trace and the machine code of an operation are logged once: no
record changes them afterwards.  A patch is noted at the time of its record, behind
all others.
-/

namespace RuntimeLog

/-- An entry which does not pass a test is not found. -/
theorem Journal.find?_push_of_not
    {α : Type}
    {chosen : α → Bool}
    {entry : α}
    (fails : ¬ chosen entry)
    (journal : Journal α) :
    (journal.push entry).find? chosen = journal.find? chosen :=
  List.find?_cons_of_neg fails

/-! ## Stages -/

namespace Stage

/-- The machine code of the operation with a number. -/
def code? (stage : Stage) (index : Nat) : Option CodeSnippet :=
  (stage.operation? index).bind Operation.code

/-- A stage which has all the machine code of an earlier one. -/
def KeepsCode (before after : Stage) : Prop :=
  ∀ index code, before.code? index = some code → after.code? index = some code

variable {stage : Stage}

/-- Code is kept where no operation changes. -/
theorem keepsCode_of_same {after : Stage} (same : after.operations = stage.operations) :
    stage.KeepsCode after := by
  intro index code found
  unfold code? operation? at found ⊢
  rwa [same]

/-- An appended operation changes no other one. -/
theorem keepsCode_pushOperation (stage : Stage) (operation : Operation) :
    stage.KeepsCode (stage.pushOperation operation) := by
  intro index code found
  unfold code? operation? at found ⊢
  obtain ⟨known, here, owns⟩ := Option.bind_eq_some_iff.mp found
  have within := (List.getElem?_eq_some_iff.mp here).1
  rw [operations_pushOperation, List.getElem?_append_left within, here]
  exact owns

/-- A merge point changes no operation. -/
theorem keepsCode_pushMergePoint (stage : Stage) (values : FieldValues) :
    stage.KeepsCode (stage.pushMergePoint values) :=
  keepsCode_of_same rfl

/-- Code is attached to the last operation, and changes no other one. -/
theorem keepsCode_attachCode
    {operation : Operation}
    (last : stage.lastOperation? = some operation)
    (bare : operation.code = none)
    (code : CodeSnippet) :
    stage.KeepsCode (stage.attachCode code) := by
  intro index kept found
  unfold code? operation? operations Journal.toList at found ⊢
  unfold lastOperation? at last
  unfold attachCode Journal.modify
  dsimp only
  cases reversed : stage.operationJournal.newestFirst with
  | nil =>
      rw [reversed] at last
      cases last
  | cons newest older =>
      rw [reversed] at last found
      cases last
      rw [List.reverse_cons] at found
      rw [Journal.modifyNewestFirst, if_pos rfl, List.reverse_cons]
      rcases Nat.lt_trichotomy index older.reverse.length with inside | here | beyond
      · rw [List.getElem?_append_left inside] at found ⊢
        exact found
      · -- the last operation had no code before
        rw [here, List.getElem?_concat_length, Option.bind_some, bare] at found
        cases found
      · have nothing : (older.reverse ++ [operation]).length ≤ index := by
          rw [List.length_append]
          exact beyond
        rw [List.getElem?_eq_none nothing] at found
        cases found

end Stage

/-! ## Traces -/

namespace Trace

/-- The machine code of an operation. -/
def code? (trace : Trace) (ref : OpRef) : Option CodeSnippet :=
  (trace.operation? ref).bind Operation.code

/-- A trace which has the bounds and all the machine code of an earlier one. -/
structure KeepsCode (before after : Trace) : Prop where
  bounds : ∀ bounds, before.bounds = some bounds → after.bounds = some bounds
  code : ∀ ref code, before.code? ref = some code → after.code? ref = some code

variable {trace middle after : Trace}

theorem KeepsCode.refl (trace : Trace) : trace.KeepsCode trace :=
  ⟨fun _ known => known, fun _ _ known => known⟩

theorem KeepsCode.trans
    (first : trace.KeepsCode middle)
    (second : middle.KeepsCode after) :
    trace.KeepsCode after :=
  ⟨fun _ known => second.bounds _ (first.bounds _ known),
    fun _ _ known => second.code _ _ (first.code _ _ known)⟩

/-- The machine code of an operation is that in its stage. -/
theorem code?_eq (trace : Trace) (ref : OpRef) :
    trace.code? ref = (trace.stage? ref.stage).bind fun stage => stage.code? ref.index := by
  unfold code? operation?
  rw [Option.bind_assoc]
  rfl

/-- Code is kept where bounds and stages do not change. -/
theorem keepsCode_of_same
    (bounds : after.bounds = trace.bounds)
    (stages : after.stages = trace.stages) :
    trace.KeepsCode after where
  bounds _ known := bounds.trans known
  code ref code found := by
    unfold code? operation? stage? at found ⊢
    rwa [stages]

/-- A change of a stage which keeps its code keeps that of the trace. -/
theorem keepsCode_modifyStage
    {change : Stage → Stage}
    {kind : StageKind}
    (same : ∀ stage, (change stage).kind = stage.kind)
    (kept : ∀ stage, trace.stage? kind = some stage → stage.KeepsCode (change stage)) :
    trace.KeepsCode (trace.modifyStage kind change) where
  bounds _ known := known
  code ref code found := by
    rw [code?_eq] at found ⊢
    obtain ⟨stage, here, owns⟩ := Option.bind_eq_some_iff.mp found
    rw [stage?_modifyStage same, here, Option.map_some, Option.bind_some]
    split
    · rename_i changed
      exact kept stage (changed ▸ here) _ _ owns
    · exact owns

/-- A stage of a kind stays the one of this kind when a stage is entered. -/
theorem stage?_enterStage
    {stage : Stage}
    {kind : StageKind}
    (found : trace.stage? kind = some stage)
    (other : StageKind) :
    (trace.enterStage other).stage? kind = some stage := by
  unfold enterStage
  split
  · exact found
  · cases entered : trace.stage? other with
    | some stage => exact found
    | none =>
        have different : ¬ (other == kind) = true := by
          intro same
          rw [← beq_iff_eq.mp same, entered] at found
          cases found
        have still : (trace.stages.push (.empty other)).find? (fun stage => stage.kind == kind) =
            some stage := by
          rw [Journal.find?_push_of_not]
          · exact found
          · exact different
        exact still

/-- Entering a stage changes no operation. -/
theorem keepsCode_enterStage (trace : Trace) (kind : StageKind) :
    trace.KeepsCode (trace.enterStage kind) where
  bounds _ known := by
    unfold enterStage
    split <;> exact known
  code ref code found := by
    rw [code?_eq] at found ⊢
    obtain ⟨stage, here, owns⟩ := Option.bind_eq_some_iff.mp found
    exact Option.bind_eq_some_iff.mpr ⟨stage, stage?_enterStage here kind, owns⟩

end Trace

/-! ## Forests -/

namespace Forest

/-- A forest in which all traces have the bounds and the machine code which they have
in an earlier one. -/
def KeepsCode (before after : Forest) : Prop :=
  ∀ id trace, before.trace? id = some trace →
    ∃ later, after.trace? id = some later ∧ trace.KeepsCode later

variable {forest middle after next : Forest}

theorem KeepsCode.refl (forest : Forest) : forest.KeepsCode forest :=
  fun _ trace found => ⟨trace, found, .refl trace⟩

theorem KeepsCode.trans
    (first : forest.KeepsCode middle)
    (second : middle.KeepsCode after) :
    forest.KeepsCode after := by
  intro id trace found
  obtain ⟨between, there, keeps⟩ := first id trace found
  obtain ⟨last, behind, keepsOn⟩ := second id between there
  exact ⟨last, behind, keeps.trans keepsOn⟩

/-- Code is kept where no trace changes. -/
theorem keepsCode_of_traces (same : next.traces = forest.traces) : forest.KeepsCode next := by
  intro id trace found
  refine ⟨trace, ?_, .refl trace⟩
  unfold trace? at found ⊢
  rwa [same]

/-- A change of a trace which keeps its code keeps that of the forest. -/
theorem keepsCode_modifyTrace
    {change : Trace → Trace}
    {id : UInt64}
    (same : ∀ trace, (change trace).id = trace.id)
    (kept : ∀ trace, forest.trace? id = some trace → trace.KeepsCode (change trace)) :
    forest.KeepsCode (forest.modifyTrace id change) := by
  intro other trace found
  rw [trace?_modifyTrace same, found]
  refine ⟨_, rfl, ?_⟩
  split
  · rename_i changed
    exact kept trace (changed ▸ found)
  · exact .refl trace

/-- A change of a trace which changes neither bounds nor stages keeps all code. -/
theorem keepsCode_modifyTrace_of_same
    {change : Trace → Trace}
    (same : ∀ trace, (change trace).id = trace.id)
    (bounds : ∀ trace, (change trace).bounds = trace.bounds)
    (stages : ∀ trace, (change trace).stages = trace.stages)
    (forest : Forest)
    (id : UInt64) :
    forest.KeepsCode (forest.modifyTrace id change) :=
  keepsCode_modifyTrace same fun trace _ => Trace.keepsCode_of_same (bounds trace) (stages trace)

/-- A change of a stage which keeps its code keeps that of the forest. -/
theorem keepsCode_modifyStage
    {change : Stage → Stage}
    {kind : StageKind}
    {id : UInt64}
    (same : ∀ stage, (change stage).kind = stage.kind)
    (kept : ∀ trace stage, forest.trace? id = some trace → trace.stage? kind = some stage →
      stage.KeepsCode (change stage)) :
    forest.KeepsCode (forest.modifyStage id kind change) :=
  keepsCode_modifyTrace (fun _ => rfl) fun trace found =>
    Trace.keepsCode_modifyStage same fun stage here => kept trace stage found here

/-- Links do not touch code. -/
theorem keepsCode_modifyLinks
    (linksOut linksIn : Trace → Journal TraceLink)
    (forest : Forest)
    (id : UInt64) :
    forest.KeepsCode (forest.modifyTrace id fun trace =>
      { trace with linksOut := linksOut trace, linksIn := linksIn trace }) :=
  keepsCode_modifyTrace_of_same (by intro _; rfl) (by intro _; rfl) (by intro _; rfl) _ _

theorem keepsCode_link (forest : Forest) (origin target : TracePoint) :
    forest.KeepsCode (forest.link origin target) :=
  link_preserves forest.KeepsCode
    (fun _ _ _ _ keeps => keeps.trans (keepsCode_modifyLinks _ _ _ _)) (.refl forest) _ _

theorem keepsCode_unlink (forest : Forest) (origin : TracePoint) :
    forest.KeepsCode (forest.unlink origin) :=
  unlink_preserves forest.KeepsCode
    (fun _ _ _ _ keeps => keeps.trans (keepsCode_modifyLinks _ _ _ _)) (.refl forest) _

theorem keepsCode_registerDescriptor
    (forest : Forest)
    (descriptor : UInt64)
    (point : TracePoint) :
    forest.KeepsCode (forest.registerDescriptor descriptor point) :=
  keepsCode_of_traces (traces_registerDescriptor forest descriptor point)

theorem keepsCode_addCounter (forest : Forest) (number count : UInt64) (kind : UInt8) :
    forest.KeepsCode (forest.addCounter number kind count) := by
  unfold addCounter
  split
  · rename_i point _
    apply keepsCode_modifyTrace_of_same
    all_goals
      intro trace
      cases point.operation <;> rfl
  · exact keepsCode_of_traces rfl

theorem keepsCode_abortTrace (forest : Forest) (id : UInt64) :
    forest.KeepsCode (forest.abortTrace id) := by
  unfold abortTrace
  split
  · exact keepsCode_modifyTrace_of_same (by intro _; rfl) (by intro _; rfl) (by intro _; rfl) _ _
  · exact keepsCode_of_traces rfl

theorem keepsCode_noteLocation (forest : Forest) (id : UInt64) (point : MergePoint) :
    forest.KeepsCode (forest.noteLocation id point) := by
  unfold noteLocation
  split
  · exact keepsCode_modifyTrace_of_same (by intro _; rfl) (by intro _; rfl) (by intro _; rfl) _ _
  · exact .refl forest

/-- A started trace has no code, and the others have theirs. -/
theorem keepsCode_push
    {trace : Trace}
    (new : forest.trace? trace.id = none)
    (same : next.traces = forest.traces.push trace) :
    forest.KeepsCode next := by
  intro id known found
  have other : ¬ (trace.id == id) = true := by
    intro equal
    rw [← beq_iff_eq.mp equal, new] at found
    cases found
  refine ⟨known, ?_, .refl known⟩
  unfold trace?
  rw [same, Journal.find?_push_of_not]
  · exact found
  · exact other

/-- Bounds are set where there were none. -/
theorem keepsCode_place
    {trace : Trace}
    (found : forest.trace? trace.id = some trace)
    (unknown : trace.bounds = none)
    (start finish : UInt64) :
    forest.KeepsCode (forest.place trace.id start finish) := by
  refine KeepsCode.trans (keepsCode_modifyTrace (by intro _; rfl) fun other again => ?_)
    (keepsCode_of_traces (traces_place forest trace.id start finish))
  cases found.symm.trans again
  refine ⟨fun bounds known => ?_, fun _ _ owns => owns⟩
  rw [unknown] at known
  cases known

/-- No record changes the bounds or the machine code of a trace. -/
theorem Step.keepsCode {record : Jitlog.Record} (step : forest.Step record next) :
    forest.KeepsCode next := by
  cases step with
  | inputArguments =>
      exact keepsCode_modifyTrace_of_same (by intro _; rfl) (by intro _; rfl) (by intro _; rfl) _ _
  | opcodes => exact keepsCode_of_traces rfl
  | operation =>
      refine KeepsCode.trans (keepsCode_modifyStage (by intro _; rfl) fun _ inner _ _ => ?_)
        (keepsCode_of_traces (traces_indexNext _ _ _ _ _))
      exact inner.keepsCode_pushOperation _
  | boundsAgain => exact keepsCode_of_traces rfl
  | bounds current unknown => exact keepsCode_place (id_of_currentTrace current).2 unknown _ _
  | codeIgnored => exact keepsCode_of_traces rfl
  | code active last bare =>
      obtain ⟨known, inside⟩ := found_of_currentStage active
      refine keepsCode_modifyStage (by intro _; rfl) fun other inner found here => ?_
      cases known.symm.trans found
      cases inside.symm.trans here
      exact Stage.keepsCode_attachCode last bare _
  | enterStage =>
      refine keepsCode_modifyTrace (fun trace => ?_) fun trace _ => trace.keepsCode_enterStage _
      unfold Trace.enterStage
      split <;> rfl
  | bridgeUnattached => exact keepsCode_of_traces rfl
  | stitchBridge => exact keepsCode_link _ _ _
  | @startTrace id attachedDescriptor _ _ shown kind new =>
      have unknown : forest.trace? (Trace.start id kind attachedDescriptor shown).id = none := new
      exact keepsCode_push unknown rfl
  | counter => exact keepsCode_addCounter _ _ _ _
  | layout =>
      exact keepsCode_modifyStage (by intro _; rfl) fun _ inner _ _ => Stage.keepsCode_of_same rfl
  | mergePoint =>
      refine KeepsCode.trans ?_ (keepsCode_modifyStage (by intro _; rfl)
        fun _ inner _ _ => inner.keepsCode_pushMergePoint _)
      exact keepsCode_noteLocation _ _ _
  | sharedStart =>
      exact keepsCode_modifyStage (by intro _; rfl) fun _ inner _ _ => Stage.keepsCode_of_same rfl
  | abortTrace => exact keepsCode_abortTrace _ _
  | sourceLines => exact keepsCode_of_traces rfl
  | redirectIgnored => exact keepsCode_of_traces rfl
  | redirect =>
      split
      · exact (keepsCode_unlink _ _).trans (keepsCode_link _ _ _)
      · exact ((keepsCode_unlink _ _).trans (keepsCode_link _ _ _)).trans
          (keepsCode_registerDescriptor _ _ _)
  | patch => exact keepsCode_of_traces rfl

end Forest
end RuntimeLog
