import RuntimeLog.Proofs.Forest.Tracking
import RuntimeLog.Proofs.Jitlog.Layouts
import RuntimeLog.Proofs.Jitlog.Records

/-!
# Spellings of merge points

A text of a merge point can be written as a whole, or by what it has behind the start which
the texts of its field share.  Whichever way is chosen, the same value is resolved.
-/

namespace RuntimeLog

open Jitlog (History)

/-! ## Values -/

namespace MergeField

/-- The ways in which a value can be written in a field. -/
inductive Spells (field : MergeField) : WrittenValue → FieldValue → Prop
  | integer (kind : field.kind = .integer) (number : UInt64) :
      Spells field (.integer number) (.integer number)
  | whole (kind : field.kind = .text) (text : String) :
      Spells field (.whole text) (.text text)
  | shared
      {start : String}
      (kind : field.kind = .text)
      (declared : field.start = some start)
      (rest : String) :
      Spells field (.shared rest) (.text (start ++ rest))
  | sharedOnly
      {start : String}
      (kind : field.kind = .text)
      (declared : field.start = some start) :
      Spells field .sharedOnly (.text start)

variable {field : MergeField} {written : WrittenValue} {value : FieldValue}

/-- A value is written with the sort of its field. -/
theorem Spells.kind_eq (spells : field.Spells written value) : written.kind = field.kind := by
  cases spells with
  | integer kind | whole kind | shared kind | sharedOnly kind => exact kind.symm

/-- A written value is resolved to what is meant. -/
theorem Spells.value?_eq (spells : field.Spells written value) :
    field.value? written = some value := by
  unfold value?
  cases spells with
  | integer | whole => rfl
  | shared _ declared | sharedOnly _ declared =>
      rw [declared]
      rfl

end MergeField

/-- Values which are written field by field. -/
inductive SpellsAll :
    List MergeField → List WrittenValue → List (FieldType × FieldValue) → Prop
  | nil : SpellsAll [] [] []
  | cons
      {field : MergeField}
      {fields : List MergeField}
      {written : WrittenValue}
      {more : List WrittenValue}
      {value : FieldValue}
      {values : List (FieldType × FieldValue)}
      (first : field.Spells written value)
      (others : SpellsAll fields more values) :
      SpellsAll (field :: fields) (written :: more) ((field.type, value) :: values)

namespace SpellsAll

variable {fields : List MergeField} {written : List WrittenValue}
variable {values : List (FieldType × FieldValue)}

/-- There is one value of the right sort for every field. -/
theorem kinds_eq (spells : SpellsAll fields written values) :
    written.map WrittenValue.kind = fields.map fun field => field.kind := by
  induction spells with
  | nil => rfl
  | cons first others inductionHypothesis =>
      rw [List.map_cons, List.map_cons, first.kind_eq, inductionHypothesis]

/-- Written values are resolved to what is meant. -/
theorem resolveFrom_eq (spells : SpellsAll fields written values) (position : UInt8) :
    Forest.resolveFrom position fields written = .ok values := by
  induction spells generalizing position with
  | nil => rfl
  | cons first others inductionHypothesis =>
      rw [Forest.resolveFrom, first.value?_eq]
      dsimp only
      rw [inductionHypothesis]
      rfl

end SpellsAll

/-! ## Merge points -/

namespace Jitlog

/-- A merge point which was logged, as it was meant. -/
structure LoggedPoint where
  trace : UInt64
  stage : StageKind
  /-- The values of the fields, in the order of the layout. -/
  values : List (FieldType × FieldValue)
deriving DecidableEq, Repr

namespace LoggedPoint

/-- Whether a merge point was logged in a stage of a trace. -/
def isIn (trace : UInt64) (stage : StageKind) (point : LoggedPoint) : Bool :=
  point.trace == trace && point.stage == stage

/-- The value which is meant for a type: the last one of those of its fields. -/
def value? (point : LoggedPoint) (type : FieldType) : Option FieldValue :=
  (point.values.reverse.find? fun entry => entry.1 == type).map Prod.snd

end LoggedPoint

/-- Records by which merge points are logged behind others.  Every value of a merge point
is written in one of the ways which are valid where it stands. -/
inductive Tells : History → List Record → List LoggedPoint → Prop
  | nil (past : History) : Tells past [] []
  | other
      {past : History}
      {record : Record}
      {records : List Record}
      {points : List LoggedPoint}
      (other : record.marker ≠ .mergePoint)
      (behind : Tells (record :: past) records points) :
      Tells past (record :: records) points
  | mergePoint
      {past : History}
      {records : List Record}
      {points : List LoggedPoint}
      {trace : UInt64}
      {stage : StageKind}
      {fields : List MergeField}
      {written : List WrittenValue}
      {values : List (FieldType × FieldValue)}
      (current : past.currentTrace = some trace)
      (active : past.activeStage = some stage)
      (declared : past.fields? trace stage = some fields)
      (spelled : SpellsAll fields written values)
      (behind : Tells (.mergePoint written :: past) records points) :
      Tells past (.mergePoint written :: records) ({ trace, stage, values } :: points)

end Jitlog

namespace MergePoint

open Jitlog (LoggedPoint)

/-- Whether a merge point has the values of a logged one: for every type the one which is
meant, and no others. -/
def Holds (point : MergePoint) (logged : LoggedPoint) : Prop :=
  ∀ type, point.get? type = logged.value? type

/-- The merge point which is made of the values of a logged one holds them. -/
theorem holds_valuesOf (index : Nat) (logged : LoggedPoint) :
    Holds { index, values := valuesOf logged.values } logged := by
  intro type
  have last := getElem?_foldl_insert (fun entry : FieldType × FieldValue => entry.1.code)
    Prod.snd logged.values ∅ type.code
  rw [Std.ExtTreeMap.getElem?_empty, Option.or_none] at last
  have codes (entry : FieldType × FieldValue) :
      (entry.1.code == type.code) = (entry.1 == type) := by
    rw [Bool.eq_iff_iff, beq_iff_eq, beq_iff_eq]
    exact ⟨fun same => congrArg FieldType.mk same, congrArg FieldType.code⟩
  simp only [codes] at last
  exact last

end MergePoint
end RuntimeLog
