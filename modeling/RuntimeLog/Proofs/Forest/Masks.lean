import RuntimeLog.Jitlog.Format
import RuntimeLog.Proofs.Update

/-!
# Masks

What traces do does not depend on how often they did it.  Records about the structure
of traces see neither what was counted in them nor whether they were aborted, neither
patches nor source lines, and nothing which the reader of a log notes in the forest.
-/

namespace RuntimeLog

open RuntimeLog.Update

/-- Whether a record tells nothing about the structure of traces. -/
def Jitlog.Record.isUtility : Jitlog.Record → Bool
  | counter .. | abortTrace _ | sourceLines .. | patch .. => true
  | _ => false

/-- A change of what no record about the structure of traces sees.  In a trace which
was just started there is nothing to change. -/
structure Mask where
  enterCount : UInt64 → UInt64
  enterCount_start : enterCount 0 = 0
  pointCounts : Std.ExtTreeMap OpRef UInt64 compare → Std.ExtTreeMap OpRef UInt64 compare
  pointCounts_start : pointCounts ∅ = ∅
  aborted : Bool → Bool
  aborted_start : aborted false = false
  header : Header → Header
  patches : Journal CodePatch → Journal CodePatch
  sourceCache : SourceCache → SourceCache
  time : Nat → Nat
  decodedUntil : Nat → Nat
  fault : Option Fault → Option Fault
  /-- Anomalies which were noted before all others, newest first. -/
  older : List Anomaly

/-- A trace under a mask. -/
def Trace.mask (mask : Mask) (trace : Trace) : Trace :=
  { trace with
    enterCount := mask.enterCount trace.enterCount
    pointCounts := mask.pointCounts trace.pointCounts
    aborted := mask.aborted trace.aborted }

namespace Forest

/-- A forest under a mask. -/
def mask (mask : Mask) (forest : Forest) : Forest :=
  { forest with
    header := mask.header forest.header
    traces := ⟨forest.traces.newestFirst.map (Trace.mask mask)⟩
    patches := mask.patches forest.patches
    sourceCache := mask.sourceCache forest.sourceCache
    time := mask.time forest.time
    decodedUntil := mask.decodedUntil forest.decodedUntil
    anomalies := ⟨forest.anomalies.newestFirst ++ mask.older⟩
    fault := mask.fault forest.fault }

variable {cover : Mask}

/-! ## Traces under a mask -/

theorem trace?_mask (forest : Forest) (id : UInt64) :
    (forest.mask cover).trace? id = (forest.trace? id).map (Trace.mask cover) := by
  unfold trace? Journal.find? mask
  rw [List.find?_map]
  rfl

theorem currentTrace_mask (forest : Forest) :
    (forest.mask cover).currentTrace = forest.currentTrace.map (Trace.mask cover) := by
  have same : (forest.mask cover).current = forest.current := rfl
  unfold currentTrace
  rw [same]
  cases forest.current with
  | none => rfl
  | some id =>
      dsimp only
      rw [trace?_mask]
      cases forest.trace? id <;> rfl

theorem currentStage_mask (forest : Forest) :
    (forest.mask cover).currentStage =
      forest.currentStage.map fun place => (place.1.mask cover, place.2) := by
  unfold currentStage
  rw [currentTrace_mask]
  cases forest.currentTrace with
  | error error => rfl
  | ok trace =>
      have same : (trace.mask cover).activeStage? = trace.activeStage? := rfl
      simp only [Except.map, bind, Except.bind, same]
      cases trace.activeStage? <;> rfl

/-- The layout in force is not masked. -/
theorem currentLayout_mask (forest : Forest) :
    (forest.mask cover).currentLayout = forest.currentLayout := by
  unfold currentLayout
  rw [currentStage_mask]
  cases forest.currentStage with
  | error error => rfl
  | ok place =>
      obtain ⟨trace, stage⟩ := place
      rfl

/-! ## Parts of updates -/

/-- A change of a trace which does not see the mask can be made under it. -/
theorem modifyTrace_mask
    {change : Trace → Trace}
    (unseen : ∀ trace, change (trace.mask cover) = (change trace).mask cover)
    (forest : Forest)
    (id : UInt64) :
    (forest.mask cover).modifyTrace id change = (forest.modifyTrace id change).mask cover := by
  have traces := @Journal.modify_map Trace (fun trace => trace.id == id) change (Trace.mask cover)
    (fun _ => rfl) unseen forest.traces
  unfold modifyTrace mask
  dsimp only
  rw [traces]

theorem modifyStage_mask
    (forest : Forest)
    (id : UInt64)
    (kind : StageKind)
    (change : Stage → Stage) :
    (forest.mask cover).modifyStage id kind change =
      (forest.modifyStage id kind change).mask cover :=
  modifyTrace_mask (by intro _; rfl) forest id

theorem registerDescriptor_mask (descriptor : UInt64) (point : TracePoint) (forest : Forest) :
    (forest.mask cover).registerDescriptor descriptor point =
      (forest.registerDescriptor descriptor point).mask cover := by
  have same : (forest.mask cover).descriptorPoints[descriptor]? =
      forest.descriptorPoints[descriptor]? := rfl
  unfold registerDescriptor
  rw [same]
  cases forest.descriptorPoints[descriptor]? <;> rfl

theorem indexDescriptor_mask
    (descriptor : UInt64)
    (name : String)
    (point : TracePoint)
    (forest : Forest) :
    (forest.mask cover).indexDescriptor descriptor name point =
      (forest.indexDescriptor descriptor name point).mask cover := by
  unfold indexDescriptor
  rw [registerDescriptor_mask]
  dsimp only
  split
  · rfl
  · split <;> rfl

theorem link_mask (origin target : TracePoint) (forest : Forest) :
    (forest.mask cover).link origin target = (forest.link origin target).mask cover := by
  unfold link
  dsimp only
  rw [modifyTrace_mask, modifyTrace_mask]
  all_goals
    intro _
    rfl

theorem foldl_dropIncoming_mask (links : List TraceLink) (forest : Forest) :
    links.foldl dropIncoming (forest.mask cover) =
      (links.foldl dropIncoming forest).mask cover := by
  induction links generalizing forest with
  | nil => rfl
  | cons link links inductionHypothesis =>
      have dropped :
          (forest.mask cover).dropIncoming link = (forest.dropIncoming link).mask cover :=
        modifyTrace_mask (by intro _; rfl) forest link.target.trace
      rw [List.foldl_cons, dropped, inductionHypothesis]
      rfl

theorem unlink_mask (origin : TracePoint) (forest : Forest) :
    (forest.mask cover).unlink origin = (forest.unlink origin).mask cover := by
  unfold unlink
  rw [trace?_mask]
  cases forest.trace? origin.trace with
  | none => rfl
  | some trace =>
      dsimp only [Option.map_some]
      rw [modifyTrace_mask]
      · exact foldl_dropIncoming_mask _ _
      · intro _
        rfl

theorem enterStage_mask (kind : StageKind) (trace : Trace) :
    (trace.mask cover).enterStage kind = (trace.enterStage kind).mask cover := by
  unfold Trace.enterStage Trace.mask
  dsimp only
  split <;> rfl

/-- In a trace which was just started there is nothing to mask. -/
theorem push_start_mask
    (forest : Forest)
    (id attachedDescriptor : UInt64)
    (kind : TraceKind)
    (driver : Option String) :
    { forest.mask cover with
        traces := (forest.mask cover).traces.push (.start id kind attachedDescriptor driver)
        current := some id } =
      mask cover { forest with
        traces := forest.traces.push (.start id kind attachedDescriptor driver)
        current := some id } := by
  have new : (Trace.start id kind attachedDescriptor driver).mask cover =
      .start id kind attachedDescriptor driver := by
    unfold Trace.mask Trace.start
    dsimp only
    rw [cover.enterCount_start, cover.pointCounts_start, cover.aborted_start]
  unfold mask Journal.push
  dsimp only
  rw [List.map_cons, new]

/-! ## Records -/

/-- To go on with the current trace does not see the mask if it does not see what is
masked of the trace. -/
theorem ignores_currentTrace_bind
    {next : Trace → Update Forest Unit}
    (unseen : ∀ trace, next (trace.mask cover) = next trace)
    (ignores : ∀ trace, (next trace).Ignores (mask cover)) :
    Ignores (mask cover) (look currentTrace >>= next) :=
  ignores_look_bind currentTrace_mask unseen ignores

/-- To go on with the active stage does not see the mask if it does not see what is
masked of the trace. -/
theorem ignores_currentStage_bind
    {next : Trace × Stage → Update Forest Unit}
    (unseen : ∀ trace stage, next (trace.mask cover, stage) = next (trace, stage))
    (ignores : ∀ trace stage, (next (trace, stage)).Ignores (mask cover)) :
    Ignores (mask cover) (look currentStage >>= next) :=
  ignores_look_bind currentStage_mask (fun place => unseen place.1 place.2)
    fun place => ignores place.1 place.2

/-- To change a stage does not see the mask. -/
theorem ignores_modifyStage (id : UInt64) (kind : StageKind) (change : Stage → Stage) :
    Ignores (mask cover)
      (modify fun forest => forest.modifyStage id kind change : Update Forest Unit) :=
  ignores_modify fun forest => modifyStage_mask forest id kind change

/-- To change a trace does not see the mask if the change does not. -/
theorem ignores_modifyTrace
    {change : Trace → Trace}
    (unseen : ∀ trace, change (trace.mask cover) = (change trace).mask cover)
    (id : UInt64) :
    Ignores (mask cover)
      (modify fun forest => forest.modifyTrace id change : Update Forest Unit) :=
  ignores_modify fun forest => modifyTrace_mask unseen forest id

/-- What is left to do for an operation which counts another one does not see the
mask. -/
theorem ignores_counted (counted : Option Descriptor) (point : TracePoint) :
    Ignores (mask cover)
      (if let some counted := counted then
        modify fun forest =>
          { forest with counterPoints := forest.counterPoints.insert counted.number point }
      else pure () : Update Forest Unit) := by
  split
  · exact ignores_modify fun _ => rfl
  · exact ignores_pure ()

/-- What is left to do for a merge point does not see the mask. -/
theorem ignores_located (values : FieldValues) :
    Ignores (mask cover)
      (do
        let (trace, stage) ← look currentStage
        modify fun forest =>
          forest.modifyStage trace.id stage.kind fun stage => stage.pushMergePoint values :
        Update Forest Unit) :=
  ignores_currentStage_bind (fun _ _ => rfl) fun _ _ => ignores_modifyStage _ _ _

/-- No record about the structure of traces sees the mask of a forest, or changes it. -/
theorem ignores_mask
    {record : Jitlog.Record}
    (structural : record.isUtility = false)
    (offset : Nat) :
    (Jitlog.apply offset record).Ignores (mask cover) := by
  cases record with
  | counter | abortTrace | sourceLines | patch => cases structural
  | inputArguments list =>
      exact ignores_currentTrace_bind (fun _ => rfl) fun trace =>
        ignores_modifyTrace (by intro _; rfl) _
  | opcodes names =>
      refine ignores_get_bind (fun _ => rfl) fun forest => ?_
      split
      · exact ignores_throw _
      · exact ignores_modify fun _ => rfl
  | operation opcode arguments failArguments descriptor =>
      refine ignores_get_bind (fun _ => rfl) fun forest => ?_
      split
      · exact ignores_throw _
      · refine ignores_currentStage_bind (fun _ _ => rfl) fun trace stage => ?_
        refine (ignores_modifyStage _ _ _).bind fun _ => ?_
        dsimp only
        split
        · exact (ignores_modify (indexDescriptor_mask _ _ _)).bind fun _ => ignores_counted _ _
        · exact ignores_counted _ _
  | bounds start finish =>
      refine ignores_currentTrace_bind (fun _ => rfl) fun trace => ?_
      split
      · exact ignores_modify fun _ => rfl
      · refine .bind (ignores_modifyTrace (by intro _; rfl) _) fun _ => ?_
        refine ignores_get_bind (fun _ => rfl) fun forest => ?_
        refine .bind (ignores_modify fun _ => rfl) fun _ => ?_
        split
        · split
          · exact ignores_pure ()
          · exact ignores_modify fun _ => rfl
        · exact ignores_pure ()
  | code code =>
      refine ignores_currentStage_bind (fun _ _ => rfl) fun trace stage => ?_
      dsimp only
      split
      · exact ignores_modify fun _ => rfl
      · split
        · exact ignores_modify fun _ => rfl
        · exact ignores_modifyStage _ _ _
  | enterStage kind trace =>
      refine ignores_get_bind (fun _ => rfl) fun forest => ?_
      dsimp only
      split
      · exact ignores_currentTrace_bind (fun _ => rfl) fun trace =>
          ignores_modifyTrace (enterStage_mask kind) _
      · exact ignores_throw _
  | stitchBridge descriptor address =>
      refine ignores_get_bind (fun _ => rfl) fun forest => ?_
      split
      · exact ignores_throw _
      · refine ignores_get_bind (fun _ => rfl) fun forest => ?_
        split
        · exact ignores_modify fun _ => rfl
        · exact ignores_modify (link_mask _ _)
  | startTrace id kind attachedDescriptor driver =>
      unfold Jitlog.apply startTrace
      dsimp only
      split
      · exact ignores_throw _
      · refine ignores_get_bind (fun forest => ?_) fun forest => ?_
        · rw [trace?_mask]
          cases forest.trace? id <;> rfl
        · split
          · exact ignores_throw _
          · exact ignores_modify fun forest => push_start_mask forest _ _ _ _
  | layout declarations =>
      exact ignores_currentStage_bind (fun _ _ => rfl) fun _ _ => ignores_modifyStage _ _ _
  | mergePoint values =>
      refine (ignores_look currentLayout_mask).bind fun layout => ?_
      have resolves : (look fun _ => resolveFrom 0 layout values).Ignores (mask cover) :=
        ignores_look fun _ => rfl
      refine resolves.bind fun values => ?_
      dsimp only
      refine ignores_currentTrace_bind (fun _ => rfl) fun trace => ?_
      split
      · exact .bind (ignores_modifyTrace (by intro _; rfl) _) fun _ => ignores_located _
      · exact ignores_located _
  | sharedStart field start =>
      refine ignores_currentStage_bind (fun _ _ => rfl) fun trace stage => ?_
      dsimp only
      split
      · exact ignores_throw _
      · split
        · exact ignores_throw _
        · exact ignores_modifyStage _ _ _
  | redirect before after target =>
      refine ignores_get_bind (fun forest => ?_) fun forest => ?_
      · rw [trace?_mask]
        cases forest.trace? target <;> rfl
      · split
        · exact ignores_throw _
        · refine ignores_get_bind (fun _ => rfl) fun forest => ?_
          split
          · exact ignores_modify fun _ => rfl
          · have links (origin : TracePoint) (forest : Forest) :
                ((forest.mask cover).unlink origin).link origin (.entry target) =
                  ((forest.unlink origin).link origin (.entry target)).mask cover := by
              rw [unlink_mask, link_mask]
            refine (ignores_modify (links _)).bind fun _ => ?_
            split
            · exact ignores_pure ()
            · exact ignores_modify (registerDescriptor_mask _ _)

end Forest
end RuntimeLog
