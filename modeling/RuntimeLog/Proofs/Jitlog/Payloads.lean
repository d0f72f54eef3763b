import RuntimeLog.Jitlog.Record
import RuntimeLog.Proofs.Reading.Composition

/-!
# Payloads of trace logs

The payloads of the records of trace logs are read by readings which are put together
from texts, from other fields and from causes of failure.  None of these causes is that
the stream ended.
-/

namespace RuntimeLog
namespace Forest

variable {forest : Forest}

/-- A missing trace is no truncation. -/
theorem currentTrace_ne_truncated : forest.currentTrace ≠ .error .truncated := by
  unfold currentTrace
  split
  · simp
  · split <;> simp

/-- A missing stage is no truncation. -/
theorem currentStage_ne_truncated : forest.currentStage ≠ .error .truncated := by
  intro failed
  unfold currentStage at failed
  cases found : forest.currentTrace with
  | error error =>
      rw [found] at failed
      cases failed
      exact currentTrace_ne_truncated found
  | ok trace =>
      rw [found] at failed
      simp only [bind, Except.bind] at failed
      split at failed <;> cases failed

/-- A missing layout is no truncation. -/
theorem currentLayout_ne_truncated : forest.currentLayout ≠ .error .truncated := by
  intro failed
  unfold currentLayout at failed
  cases found : forest.currentStage with
  | error error =>
      rw [found] at failed
      cases failed
      exact currentStage_ne_truncated found
  | ok place =>
      rw [found] at failed
      simp only [bind, Except.bind] at failed
      split at failed <;> cases failed

end Forest

namespace Jitlog
namespace Record

/-- A property of readings which covers all from which payloads are put together. -/
structure Covers (property : ∀ {α : Type}, Reading DecodeError α → Prop) : Prop extends
    Reading.Composes property where
  text : property textReading
  failed : ∀ {α : Type} (error : DecodeError), error ≠ .truncated →
    property (Reading.failed error : Reading DecodeError α)

namespace Covers

variable {property : ∀ {α : Type}, Reading DecodeError α → Prop}

theorem detailReading (covers : Covers property) (version : UInt16) :
    property (detailReading version) := by
  unfold Record.detailReading
  split
  · exact covers.bind covers.text fun value => covers.done (some value)
  · exact covers.done none

theorem operationReading
    (covers : Covers property)
    (words : WordSize)
    (version : UInt16)
    (hasDescriptor : Bool) :
    property (operationReading words version hasDescriptor) := by
  refine covers.bind covers.u16 fun opcode => covers.bind covers.text fun arguments => ?_
  refine covers.bind (covers.detailReading version) fun failArguments => ?_
  split
  · exact covers.bind (covers.address words) fun _ => covers.done _
  · exact covers.done _

theorem valueReading (covers : Covers property) (field : MergeField) (position : UInt8) :
    property (field.valueReading position) := by
  have invalid (tag : UInt8) :
      property (Reading.failed (.invalidValueTag tag) : Reading DecodeError WrittenValue) :=
    covers.failed _ (by simp)
  have missing :
      property
        (Reading.failed (.missingCommonPrefix position) : Reading DecodeError WrittenValue) :=
    covers.failed _ (by simp)
  refine covers.bind covers.u8 fun tag => ?_
  split
  · split
    · exact covers.bind covers.u64 fun _ => covers.done _
    · exact invalid tag
  · split
    · split
      · exact covers.done _
      · exact missing
    · split
      · split
        · exact covers.bind covers.text fun _ => covers.done _
        · exact missing
      · split
        · exact covers.bind covers.text fun _ => covers.done _
        · exact invalid tag

theorem valuesReading (covers : Covers property) (position : UInt8) (layout : List MergeField) :
    property (valuesReading position layout) := by
  induction layout generalizing position with
  | nil => exact covers.done []
  | cons field layout inductionHypothesis =>
      refine covers.bind (covers.valueReading field position) fun value => ?_
      exact covers.bind (inductionHypothesis (position + 1)) fun _ => covers.done _

theorem declarationReading (covers : Covers property) :
    property FieldDeclaration.reading := by
  refine covers.bind covers.u8 fun type => covers.bind covers.u8 fun code => ?_
  split
  · exact covers.done _
  · exact covers.failed _ (by simp)

theorem lineReading (covers : Covers property) : property lineReading :=
  covers.bind covers.u16 fun _ => covers.bind covers.u8 fun _ =>
    covers.bind covers.text fun _ => covers.done _

theorem opcodeReading (covers : Covers property) : property opcodeReading :=
  covers.bind covers.u16 fun _ => covers.bind covers.text fun _ => covers.done _

/-- All payloads are covered. -/
theorem reading
    (covers : Covers property)
    (words : WordSize)
    (version : UInt16)
    (forest : Forest)
    (marker : Marker) :
    property (reading words version forest marker) := by
  have address := covers.address words
  cases marker with
  | inputArguments => exact covers.map covers.text _
  | opcodes =>
      exact covers.bind covers.u16 fun _ =>
        covers.bind (covers.repeated covers.opcodeReading _) fun _ => covers.done _
  | operation => exact covers.operationReading words version false
  | operationWithDescriptor => exact covers.operationReading words version true
  | bounds => exact covers.bind address fun _ => covers.bind address fun _ => covers.done _
  | code => exact covers.bind covers.u16 fun _ => covers.bind covers.blob fun _ => covers.done _
  | enterNoopt => exact covers.map address _
  | enterOpt => exact covers.map address _
  | enterAsm => exact covers.map address _
  | stitchBridge => exact covers.bind address fun _ => covers.bind address fun _ => covers.done _
  | startTrace =>
      refine covers.bind address fun _ => covers.bind covers.text fun _ => ?_
      refine covers.bind address fun _ => ?_
      exact covers.bind (covers.detailReading version) fun _ => covers.done _
  | counter =>
      exact covers.bind address fun _ => covers.bind covers.u8 fun _ =>
        covers.bind covers.u64 fun _ => covers.done _
  | layout =>
      exact covers.bind covers.u8 fun _ =>
        covers.bind (covers.repeated covers.declarationReading _) fun _ => covers.done _
  | mergePoint =>
      change property (mergePointReading forest.currentLayout)
      unfold mergePointReading
      split
      · rename_i error failed
        refine covers.failed error ?_
        rintro rfl
        exact Forest.currentLayout_ne_truncated failed
      · exact covers.map (covers.valuesReading 0 _) _
  | sharedStart =>
      exact covers.bind covers.u8 fun _ => covers.bind covers.text fun _ => covers.done _
  | abortTrace => exact covers.map address _
  | sourceLines =>
      exact covers.bind covers.text fun _ => covers.bind covers.u16 fun _ =>
        covers.bind (covers.repeated covers.lineReading _) fun _ => covers.done _
  | redirect =>
      exact covers.bind address fun _ => covers.bind address fun _ =>
        covers.bind address fun _ => covers.done _
  | patch => exact covers.bind address fun _ => covers.bind covers.blob fun _ => covers.done _

end Covers
end Record
end Jitlog
end RuntimeLog
