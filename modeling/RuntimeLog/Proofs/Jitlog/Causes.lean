import RuntimeLog.Jitlog.Format
import RuntimeLog.Proofs.Jitlog.Payloads
import RuntimeLog.Proofs.Reading.Causes
import RuntimeLog.Proofs.Update

/-!
# Causes for which records of trace logs are refused

A record of a trace log may be malformed or may not fit to the records before it.
It is never refused for being truncated: that is for the end of the stream to
say.
-/

namespace RuntimeLog

namespace Forest

variable {forest : Forest}

/-- A missing shared start is no truncation. -/
theorem resolveFrom_ne_truncated
    (position : UInt8)
    (layout : List MergeField)
    (written : List WrittenValue) :
    resolveFrom position layout written ≠ .error .truncated := by
  fun_induction resolveFrom position layout written with
  | case1 => simp
  | case2 position field fields first values value found inductionHypothesis =>
      intro failed
      cases rest : resolveFrom (position + 1) fields values with
      | error error =>
          rw [rest] at failed
          cases failed
          exact inductionHypothesis rest
      | ok list =>
          rw [rest] at failed
          cases failed
  | case3 => simp

/-! ## Updates -/

/-- Looking up the current trace is refused for no truncation. -/
theorem avoids_look_currentTrace : (Update.look currentTrace).Avoids .truncated :=
  Update.avoids_look fun _ => currentTrace_ne_truncated

/-- Looking up the active stage is refused for no truncation. -/
theorem avoids_look_currentStage : (Update.look currentStage).Avoids .truncated :=
  Update.avoids_look fun _ => currentStage_ne_truncated

/-- No names of opcodes are refused for being truncated. -/
theorem avoids_declareOpcodes (names : List (UInt16 × String)) :
    (declareOpcodes names).Avoids .truncated := by
  refine Update.avoids_get.bind fun forest => ?_
  split
  · exact Update.avoids_throw (by simp)
  · exact Update.avoids_modify _

/-- No start of a trace is refused for being truncated. -/
theorem avoids_startTrace
    (id : UInt64)
    (kindName : String)
    (attachedDescriptor : UInt64)
    (driver : Option String) :
    (startTrace id kindName attachedDescriptor driver).Avoids .truncated := by
  unfold startTrace
  split
  · exact Update.avoids_throw (by simp)
  · refine Update.avoids_get.bind fun forest => ?_
    split
    · exact Update.avoids_throw (by simp)
    · exact Update.avoids_modify _

/-- No stage is refused for being truncated. -/
theorem avoids_enterStage (id : UInt64) (kind : StageKind) :
    (enterStage id kind).Avoids .truncated := by
  refine Update.avoids_get.bind fun forest => ?_
  dsimp only
  split
  · exact avoids_look_currentTrace.bind fun trace => Update.avoids_modify _
  · exact Update.avoids_throw (by simp)

/-- No input arguments are refused for being truncated. -/
theorem avoids_setInputArguments (list : String) :
    (setInputArguments list).Avoids .truncated :=
  avoids_look_currentTrace.bind fun _ => Update.avoids_modify _

/-- No operation is refused for being truncated. -/
theorem avoids_addOperation
    (offset : Nat)
    (opcode : UInt16)
    (arguments : String)
    (failArguments : Option String)
    (descriptor : Option UInt64) :
    (addOperation offset opcode arguments failArguments descriptor).Avoids .truncated := by
  refine Update.avoids_get.bind fun forest => ?_
  split
  · exact Update.avoids_throw (by simp)
  · refine avoids_look_currentStage.bind fun ⟨trace, stage⟩ => ?_
    refine (Update.avoids_modify _).bind fun _ => ?_
    dsimp only
    split
    · refine (Update.avoids_modify _).bind fun _ => ?_
      split
      · exact Update.avoids_modify _
      · exact Update.avoids_pure ()
    · split
      · exact Update.avoids_modify _
      · exact Update.avoids_pure ()

/-- No bounds are refused for being truncated. -/
theorem avoids_setBounds (start finish : UInt64) :
    (setBounds start finish).Avoids .truncated := by
  refine avoids_look_currentTrace.bind fun trace => ?_
  split
  · exact Update.avoids_modify _
  · refine (Update.avoids_modify _).bind fun _ => Update.avoids_get.bind fun forest => ?_
    refine (Update.avoids_modify _).bind fun _ => ?_
    split
    · split
      · exact Update.avoids_pure ()
      · exact Update.avoids_modify _
    · exact Update.avoids_pure ()

/-- No machine code is refused for being truncated. -/
theorem avoids_attachCode (code : CodeSnippet) : (attachCode code).Avoids .truncated := by
  refine avoids_look_currentStage.bind fun ⟨trace, stage⟩ => ?_
  dsimp only
  split
  · exact Update.avoids_modify _
  · split <;> exact Update.avoids_modify _

/-- No layout is refused for being truncated. -/
theorem avoids_declareLayout (declarations : List FieldDeclaration) :
    (declareLayout declarations).Avoids .truncated :=
  avoids_look_currentStage.bind fun _ => Update.avoids_modify _

/-- No shared start is refused for being truncated. -/
theorem avoids_declareSharedStart (field : UInt8) (start : String) :
    (declareSharedStart field start).Avoids .truncated := by
  refine avoids_look_currentStage.bind fun ⟨trace, stage⟩ => ?_
  dsimp only
  split
  · exact Update.avoids_throw (by simp)
  · split
    · exact Update.avoids_throw (by simp)
    · exact Update.avoids_modify _

/-- No merge point is refused for being truncated. -/
theorem avoids_addMergePoint (written : List WrittenValue) :
    (addMergePoint written).Avoids .truncated := by
  refine (Update.avoids_look fun _ => currentLayout_ne_truncated).bind fun layout => ?_
  refine (Update.avoids_look fun _ => resolveFrom_ne_truncated 0 layout written).bind
    fun values => ?_
  refine avoids_look_currentTrace.bind fun trace => ?_
  dsimp only
  split
  · refine (Update.avoids_modify _).bind fun _ => ?_
    exact avoids_look_currentStage.bind fun _ => Update.avoids_modify _
  · exact avoids_look_currentStage.bind fun _ => Update.avoids_modify _

/-- No bridge is refused for being truncated. -/
theorem avoids_stitchBridge (descriptor address : UInt64) :
    (stitchBridge descriptor address).Avoids .truncated := by
  refine Update.avoids_get.bind fun forest => ?_
  split
  · exact Update.avoids_throw (by simp)
  · refine Update.avoids_get.bind fun forest => ?_
    split <;> exact Update.avoids_modify _

/-- No redirection is refused for being truncated. -/
theorem avoids_redirect (before after target : UInt64) :
    (redirect before after target).Avoids .truncated := by
  refine Update.avoids_get.bind fun forest => ?_
  split
  · exact Update.avoids_throw (by simp)
  · refine Update.avoids_get.bind fun forest => ?_
    split
    · exact Update.avoids_modify _
    · refine (Update.avoids_modify _).bind fun _ => ?_
      split
      · exact Update.avoids_pure ()
      · exact Update.avoids_modify _

end Forest

namespace Jitlog

/-- No record of a trace log is refused by the forest for being truncated. -/
theorem avoids_apply (offset : Nat) (record : Record) :
    (apply offset record).Avoids .truncated := by
  cases record with
  | inputArguments list => exact Forest.avoids_setInputArguments list
  | opcodes names => exact Forest.avoids_declareOpcodes names
  | operation opcode arguments failArguments descriptor =>
      exact Forest.avoids_addOperation offset opcode arguments failArguments descriptor
  | bounds start finish => exact Forest.avoids_setBounds start finish
  | code code => exact Forest.avoids_attachCode code
  | enterStage kind trace => exact Forest.avoids_enterStage trace kind
  | stitchBridge descriptor address => exact Forest.avoids_stitchBridge descriptor address
  | startTrace id kind attachedDescriptor driver =>
      exact Forest.avoids_startTrace id kind attachedDescriptor driver
  | counter number kind count => exact Update.avoids_modify _
  | layout declarations => exact Forest.avoids_declareLayout declarations
  | mergePoint values => exact Forest.avoids_addMergePoint values
  | sharedStart field start => exact Forest.avoids_declareSharedStart field start
  | abortTrace id => exact Update.avoids_modify _
  | sourceLines file lines => exact Update.avoids_modify _
  | redirect before after target => exact Forest.avoids_redirect before after target
  | patch address bytes => exact Update.avoids_modify _

/-! ## Payloads -/

namespace Record

/-- To be no truncation is a property of all payloads. -/
theorem covers_avoids :
    Covers fun reading : Reading DecodeError _ => reading.Avoids .truncated where
  toComposes := Reading.composes_avoids
  text := Reading.avoids_text fun _ => by simp [DecodeError.invalidUtf8]
  failed _ other := other

/-- No payload of a record is malformed for being truncated. -/
theorem avoids_reading
    (words : WordSize)
    (version : UInt16)
    (forest : Forest)
    (marker : Marker) :
    (reading words version forest marker).Avoids .truncated :=
  covers_avoids.reading words version forest marker

end Record
end Jitlog
end RuntimeLog
