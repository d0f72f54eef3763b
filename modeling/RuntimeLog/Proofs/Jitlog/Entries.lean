import RuntimeLog.Proofs.Jitlog.Layouts

/-!
# Entries in histories

Which operations and merge points a history tells of a stage: those which were logged while
the stage was active, in this order.  Operations and merge points are numbered on their
own.  What is logged while another stage is active plays no part, however often the stage is
left and entered again.
-/

namespace RuntimeLog

/-- An entry without machine code, which is logged behind it. -/
def StageEntry.bare : StageEntry → StageEntry
  | operation known => .operation { known with code := none }
  | mergePoint point => .mergePoint point

namespace Jitlog

/-- Whether a record logs an operation or a merge point. -/
def Record.isEntry : Record → Bool
  | operation .. | mergePoint _ => true
  | _ => false

namespace History

/-- The entry which a record logs in a stage behind others. -/
def entryBehind?
    (earlier : History)
    (trace : UInt64)
    (stage : StageKind)
    (entries : List StageEntry) : Record → Option StageEntry
  | .operation opcode arguments failArguments descriptor =>
      (earlier.opcodeName? opcode).map fun name =>
        let list := ArgumentList.parse arguments descriptor.isSome
        .operation
          { index := (entries.filterMap StageEntry.operation?).length
            opcode
            name
            arguments := list.arguments
            result := list.result
            descriptor := descriptor.map fun number => { label := list.label.getD "", number }
            code := none
            failArguments := failArguments.bind ArgumentList.parseFail }
  | .mergePoint written =>
      (earlier.fields? trace stage).bind fun fields =>
        (Forest.resolveFrom 0 fields written).toOption.map fun values =>
          .mergePoint
            { index := (entries.filterMap StageEntry.mergePoint?).length
              values := MergePoint.valuesOf values }
  | _ => none

/-- The operations and merge points which were logged in a stage of a trace, oldest first. -/
def entriesIn (trace : UInt64) (stage : StageKind) : History → List StageEntry
  | [] => []
  | record :: earlier =>
      if currentTrace earlier = some trace ∧ activeStage earlier = some stage then
        entriesIn trace stage earlier ++
          (entryBehind? earlier trace stage (entriesIn trace stage earlier) record).toList
      else entriesIn trace stage earlier

variable {history : History} {record : Record} {trace : UInt64} {stage : StageKind}

/-- An entry is logged in the active stage. -/
theorem entriesIn_cons_of_active
    (current : history.currentTrace = some trace)
    (active : history.activeStage = some stage)
    (record : Record) :
    entriesIn trace stage (record :: history) =
      history.entriesIn trace stage ++
        (history.entryBehind? trace stage (history.entriesIn trace stage) record).toList :=
  if_pos ⟨current, active⟩

/-- A record adds nothing to a stage which is not active. -/
theorem entriesIn_cons_of_elsewhere
    (elsewhere : ¬ (history.currentTrace = some trace ∧ history.activeStage = some stage))
    (record : Record) :
    entriesIn trace stage (record :: history) = history.entriesIn trace stage :=
  if_neg elsewhere

/-- A record which logs neither an operation nor a merge point adds nothing to any stage. -/
theorem entriesIn_cons_of_silent (silent : ¬ record.isEntry) (history : History) :
    entriesIn trace stage (record :: history) = history.entriesIn trace stage := by
  by_cases here : history.currentTrace = some trace ∧ history.activeStage = some stage
  · have nothing : history.entryBehind? trace stage (history.entriesIn trace stage) record =
        none := by
      cases record with
      | operation | mergePoint => exact absurd rfl silent
      | _ => rfl
    rw [entriesIn_cons_of_active here.1 here.2, nothing, Option.toList_none, List.append_nil]
  · exact entriesIn_cons_of_elsewhere here record

/-- Entries are only appended. -/
theorem prefix_entriesIn (records history : History) :
    history.entriesIn trace stage <+: entriesIn trace stage (records ++ history) := by
  induction records with
  | nil => exact List.prefix_rfl
  | cons record records inductionHypothesis =>
      refine inductionHypothesis.trans ?_
      rw [List.cons_append, entriesIn]
      split
      · exact List.prefix_append _ _
      · exact List.prefix_rfl

end History
end Jitlog
end RuntimeLog
