import RuntimeLog.Proofs.Jitlog.History

/-!
# Layouts in histories

Which fields a history declares for the merge points of a stage, and which starts the
texts of these fields share: the ones which were declared last while the stage was active,
and since its fields were.  What is logged while another stage is active plays no part,
however often the stage is left and entered again.
-/

namespace RuntimeLog
namespace Jitlog

namespace Record

/-- The fields which a record declares. -/
def declarations? : Record → Option (List FieldDeclaration)
  | layout declarations => some declarations
  | _ => none

/-- The start which a record declares for the texts of the field at a position. -/
def startOf? (position : Nat) : Record → Option String
  | sharedStart field start => if field.toNat = position then some start else none
  | _ => none

/-- Whether a record declares fields or what their texts share. -/
def isDeclaring : Record → Bool
  | layout _ | sharedStart .. => true
  | _ => false

/-- A record which declares nothing declares neither fields nor starts. -/
theorem silent_of_not_isDeclaring {record : Record} (silent : ¬ record.isDeclaring) :
    record.declarations? = none ∧ ∀ position, record.startOf? position = none := by
  cases record with
  | layout | sharedStart => exact absurd rfl silent
  | _ => exact ⟨rfl, fun _ => rfl⟩

end Record

namespace History

/-- The records which were logged while a stage of a trace was active, newest first. -/
def during (trace : UInt64) (stage : StageKind) : History → List Record
  | [] => []
  | record :: earlier =>
      if currentTrace earlier = some trace ∧ activeStage earlier = some stage then
        record :: during trace stage earlier
      else during trace stage earlier

/-- The fields which were declared last for the merge points of a stage. -/
def declarations? (history : History) (trace : UInt64) (stage : StageKind) :
    Option (List FieldDeclaration) :=
  (history.during trace stage).findSome? Record.declarations?

/-- The start which the texts of the field at a position share in a stage: the last one
which was declared for it since the fields of the stage were. -/
def start? (history : History) (trace : UInt64) (stage : StageKind) (position : Nat) :
    Option String :=
  ((history.during trace stage).takeWhile fun record => record.declarations?.isNone).findSome?
    (Record.startOf? position)

/-- The fields of the merge points of a stage, with the starts which their texts share. -/
def fields? (history : History) (trace : UInt64) (stage : StageKind) : Option (List MergeField) :=
  (history.declarations? trace stage).map fun declarations =>
    declarations.mapIdx fun position declaration =>
      { declaration with start := history.start? trace stage position }

variable {history : History} {record : Record} {trace : UInt64} {stage : StageKind}

/-- A record is logged in the active stage. -/
theorem during_cons_of_active
    (current : history.currentTrace = some trace)
    (active : history.activeStage = some stage)
    (record : Record) :
    during trace stage (record :: history) = record :: history.during trace stage :=
  if_pos ⟨current, active⟩

/-- A record which is logged in another stage does not touch the fields. -/
theorem fields?_cons_of_elsewhere
    (elsewhere : ¬ (history.currentTrace = some trace ∧ history.activeStage = some stage))
    (record : Record) :
    fields? (record :: history) trace stage = history.fields? trace stage := by
  have same : during trace stage (record :: history) = history.during trace stage :=
    if_neg elsewhere
  unfold fields? declarations? start?
  rw [same]

/-- A record which declares nothing does not touch the fields of any stage. -/
theorem fields?_cons_of_silent (silent : ¬ record.isDeclaring) (history : History) :
    fields? (record :: history) = history.fields? := by
  obtain ⟨declares, starts⟩ := Record.silent_of_not_isDeclaring silent
  funext trace stage
  by_cases here : history.currentTrace = some trace ∧ history.activeStage = some stage
  · unfold fields? declarations? start?
    rw [during_cons_of_active here.1 here.2, List.findSome?_cons_of_isNone (by simp [declares]),
      List.takeWhile_cons_of_pos (by simp [declares])]
    simp only [List.findSome?_cons, starts]
  · exact fields?_cons_of_elsewhere here record

/-- Fields which are declared share no starts yet. -/
theorem fields?_cons_layout
    (current : history.currentTrace = some trace)
    (active : history.activeStage = some stage)
    (declarations : List FieldDeclaration) :
    fields? (.layout declarations :: history) trace stage =
      some (declarations.map MergeField.declare) := by
  unfold fields? declarations? start?
  rw [during_cons_of_active current active, List.findSome?_cons,
    List.takeWhile_cons_of_neg (by simp [Record.declarations?])]
  refine congrArg some (List.ext_getElem? fun position => ?_)
  simp only [List.getElem?_mapIdx, List.getElem?_map]
  rfl

/-- A start which is declared for a field is shared by its texts from then on, and the
other fields keep theirs. -/
theorem fields?_cons_sharedStart
    {field : UInt8}
    {start : String}
    {fields : List MergeField}
    {declared : MergeField}
    (current : history.currentTrace = some trace)
    (active : history.activeStage = some stage)
    (known : history.fields? trace stage = some fields)
    (among : fields[field.toNat]? = some declared) :
    fields? (.sharedStart field start :: history) trace stage =
      some (fields.set field.toNat { declared with start := some start }) := by
  obtain ⟨declarations, last, rfl⟩ := Option.map_eq_some_iff.mp known
  have still : declarations? (.sharedStart field start :: history) trace stage =
      some declarations := by
    unfold declarations?
    rw [during_cons_of_active current active, List.findSome?_cons]
    exact last
  have starts (position : Nat) :
      start? (.sharedStart field start :: history) trace stage position =
        if field.toNat = position then some start else history.start? trace stage position := by
    unfold start?
    rw [during_cons_of_active current active, List.takeWhile_cons_of_pos rfl,
      List.findSome?_cons, Record.startOf?]
    by_cases same : field.toNat = position
    · rw [if_pos same, if_pos same]
    · rw [if_neg same, if_neg same]
  unfold fields?
  rw [still]
  refine congrArg some (List.ext_getElem? fun position => ?_)
  rw [List.getElem?_mapIdx, List.getElem?_set, List.getElem?_mapIdx]
  rw [List.getElem?_mapIdx] at among
  obtain ⟨declaration, there, rfl⟩ := Option.map_eq_some_iff.mp among
  by_cases here : field.toNat = position
  · subst here
    have inside := (List.getElem?_eq_some_iff.mp there).1
    rw [there, if_pos rfl, if_pos (by simpa using inside), Option.map_some, starts, if_pos rfl]
  · simp [starts, here]

end History
end Jitlog
end RuntimeLog
