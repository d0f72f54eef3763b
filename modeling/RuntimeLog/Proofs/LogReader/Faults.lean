import RuntimeLog.Jitlog.Format
import RuntimeLog.Profile.Format
import RuntimeLog.Proofs.Forest.Atomicity
import RuntimeLog.Proofs.LogReader.Drain
import RuntimeLog.Proofs.LogReader.Opening
import RuntimeLog.Proofs.LogReader.Records
import RuntimeLog.Stream.Zstd.Decoder
import RuntimeLog.Stream.Zstd.Decoder

/-!
# Faults

A fault ends decoding and leaves nothing else behind: but for the fault, the
model is the one of the bytes in front of the record which has it.
-/

namespace RuntimeLog

/-- The ledger which a reader keeps in the models of a format.  Records which
fail leave no trace in the model, and those which do not fail leave the fault
alone. -/
structure LogFormat.Ledger {Marker Record Model : Type}
    (format : LogFormat Marker Record Model) where
  fault? : Model → Option Fault
  decodedUntil : Model → Nat
  /-- The model without its fault. -/
  healed : Model → Model
  fault_start : ∀ header, fault? (format.start header) = none
  eq_of_error : ∀ {offset record model error later},
    (format.apply offset record).run model = .error error later → later = model
  fault_of_ok : ∀ {offset record model later},
    (format.apply offset record).run model = .ok () later → fault? later = fault? model
  fault_advance : ∀ model offset, fault? (format.advance model offset) = fault? model
  decodedUntil_advance : ∀ model offset, decodedUntil (format.advance model offset) = offset
  fault_stop : ∀ model fault, fault? (format.stop model fault) = some fault
  decodedUntil_stop : ∀ model fault, decodedUntil (format.stop model fault) = decodedUntil model
  healed_stop : ∀ model fault, fault? model = none → healed (format.stop model fault) = model

namespace LogFormat

variable {Marker Record Model : Type} {format : LogFormat Marker Record Model}
variable {dialect : Dialect Marker} {model : Model} {offset : Nat} {bytes : Bytes}

namespace Ledger

/-- A record which is refused leaves the model as it was. -/
theorem eq_of_refused
    (ledger : format.Ledger)
    {left : Model}
    {marker : UInt8}
    {error : DecodeError}
    (judged : format.judge dialect model offset bytes = .refused marker error left) :
    left = model := by
  cases bytes with
  | nil => cases judged
  | cons first payload =>
      rw [judge] at judged
      split at judged
      · cases judged
        rfl
      · unfold judgePayload at judged
        split at judged
        · cases judged
        · cases judged
          rfl
        · split at judged
          · rename_i failed
            cases judged
            exact ledger.eq_of_error failed
          · cases judged

/-- A log without a fault so far either has none in the end, or one at the end of
its good records, and the model behind these is left. -/
theorem decodeFrom_cases
    (ledger : format.Ledger)
    (sound : ledger.fault? model = none)
    (dialect : Dialect Marker)
    (offset : Nat)
    (bytes : Bytes) :
    ∃ answers total last,
      Records format dialect model offset bytes answers total last ∧
      ledger.fault? last = none ∧
      (format.decodeFrom dialect model offset bytes).1.filterMap Status.record? =
        answers.filterMap Status.record? ∧
      ((format.decodeFrom dialect model offset bytes).2 = last ∨
        ∃ fault, fault.offset = offset + total ∧
          (format.decodeFrom dialect model offset bytes).2 = format.stop last fault) := by
  obtain ⟨answers, total, last, records, ends⟩ :=
    exists_records format dialect model offset bytes
  have soundLast : ledger.fault? last = none := by
    apply records.preserves (ledger.fault? · = none) sound
    intro model next record offset behind applied before
    rw [ledger.fault_advance, ledger.fault_of_ok applied, before]
  refine ⟨answers, total, last, records, soundLast, ?_⟩
  rw [records.decodeFrom_eq]
  rcases ends with complete | ⟨incomplete, unfinished | ⟨marker, error, left, refused⟩⟩
  · rw [decodeFrom_of_complete complete]
    exact ⟨by simp [Status.record?], Or.inl rfl⟩
  · rw [decodeFrom_of_unfinished incomplete unfinished]
    refine ⟨by simp, ?_⟩
    cases bytes.drop total with
    | nil => exact Or.inl rfl
    | cons marker payload => exact Or.inr ⟨_, rfl, rfl⟩
  · rw [decodeFrom_of_refused incomplete refused, ledger.eq_of_refused refused]
    exact ⟨by simp [Status.record?], Or.inr ⟨_, rfl, rfl⟩⟩

end Ledger
end LogFormat

namespace LogReader

variable [Stream.Decompressor]
variable {Marker Record Model : Type} {format : LogFormat Marker Record Model}

/-- A log with a fault decodes to what the bytes in front of the fault decode to,
and these have none. -/
theorem readToEnd_of_fault
    (ledger : format.Ledger)
    {bytes : Bytes}
    {chunk : Nat}
    {reader : LogReader format}
    (plain : ¬ Stream.Zstd.magic <+: bytes)
    (answered : open? format (.ofBytes bytes) chunk = .ok reader)
    (shorterChunk : Nat) :
    ∃ model, reader.readToEnd = .ok model ∧
      ∀ fault, ledger.fault? model = some fault →
        ∃ shorter,
          open? format (.ofBytes (bytes.take fault.offset)) shorterChunk = .ok shorter ∧
          shorter.readToEnd = .ok (ledger.healed model) ∧
          ledger.fault? (ledger.healed model) = none ∧
          (reader.drain.decoded ≠ [] → ledger.decodedUntil model = fault.offset) := by
  obtain ⟨header, size, markers, parsed, supported⟩ := exists_header_of_ofBytes plain answered
  obtain ⟨opener, reopened, opened, prompt⟩ := opened_ofBytes plain parsed supported chunk
  cases answered.symm.trans reopened
  obtain ⟨ended, decoded⟩ := readToEnd_eq_outlook opened.streams prompt
  refine ⟨_, ended, ?_⟩
  intro fault found
  have within := Header.size_le_of_parse parsed
  rw [opened.outlook_eq within, Stream.contentOf_nil, List.append_nil] at found decoded ⊢
  obtain ⟨answers, total, last, records, sound, answers_eq, stopped⟩ :=
    ledger.decodeFrom_cases (ledger.fault_start header) { header, markers } size (bytes.drop size)
  rcases stopped with whole | ⟨other, place, whole⟩
  · rw [whole, sound] at found
    cases found
  · rw [whole, ledger.fault_stop] at found
    cases found
    have plainShorter : ¬ Stream.Zstd.magic <+: bytes.take fault.offset := fun compressed =>
      plain (compressed.trans (List.take_prefix _ _))
    have parsedShorter := Header.parse_take parsed (show size ≤ fault.offset by omega)
    obtain ⟨shorter, answeredShorter, openedShorter, promptShorter⟩ :=
      opened_ofBytes plainShorter parsedShorter supported shorterChunk
    obtain ⟨endedShorter, _⟩ := readToEnd_eq_outlook openedShorter.streams promptShorter
    have behind : (bytes.take fault.offset).drop size = (bytes.drop size).take total := by
      rw [List.drop_take, place, Nat.add_sub_cancel_left]
    rw [openedShorter.outlook_eq (Header.size_le_of_parse parsedShorter), Stream.contentOf_nil,
      List.append_nil, behind, records.decodeFrom_take] at endedShorter
    rw [whole, ledger.healed_stop last fault sound, ledger.decodedUntil_stop]
    refine ⟨shorter, answeredShorter, endedShorter, sound, ?_⟩
    intro some
    have any : answers ≠ [] := by
      rintro rfl
      rw [decoded, answers_eq] at some
      exact some rfl
    obtain ⟨applied, reached⟩ := records.exists_advance any
    rw [reached, ledger.decodedUntil_advance, place]

end LogReader

/-! ## The two formats -/

namespace Jitlog

/-- No record of a trace log has a partial effect. -/
theorem atomic_apply (offset : Nat) (record : Record) :
    (apply offset record).Atomic Forest.account := by
  cases record with
  | inputArguments list => exact Forest.atomic_setInputArguments list
  | opcodes names => exact Forest.atomic_declareOpcodes names
  | operation opcode arguments failArguments descriptor =>
      exact Forest.atomic_addOperation offset opcode arguments failArguments descriptor
  | bounds start finish => exact Forest.atomic_setBounds start finish
  | code code => exact Forest.atomic_attachCode code
  | enterStage kind trace => exact Forest.atomic_enterStage trace kind
  | stitchBridge descriptor address => exact Forest.atomic_stitchBridge descriptor address
  | startTrace id kind attachedDescriptor driver =>
      exact Forest.atomic_startTrace id kind attachedDescriptor driver
  | counter number kind count =>
      exact Update.atomic_modify fun forest => Forest.account_addCounter forest number kind count
  | layout declarations => exact Forest.atomic_declareLayout declarations
  | mergePoint values => exact Forest.atomic_addMergePoint values
  | sharedStart field start => exact Forest.atomic_declareSharedStart field start
  | abortTrace id =>
      exact Update.atomic_modify fun forest => Forest.account_abortTrace forest id
  | sourceLines file lines => exact Update.atomic_modify fun _ => rfl
  | redirect before after target => exact Forest.atomic_redirect before after target
  | patch address bytes => exact Update.atomic_modify fun _ => rfl

/-- The ledger of a trace log. -/
def ledger : format.Ledger where
  fault? := Forest.fault
  decodedUntil := Forest.decodedUntil
  healed forest := { forest with fault := none }
  fault_start _ := rfl
  eq_of_error failed := (atomic_apply _ _).eq_of_error failed
  fault_of_ok applied := congrArg Forest.Account.fault ((atomic_apply _ _).view_of_ok applied)
  fault_advance _ _ := rfl
  decodedUntil_advance _ _ := rfl
  fault_stop _ _ := rfl
  decodedUntil_stop _ _ := rfl
  healed_stop forest fault sound := by
    cases forest
    cases sound
    rfl

end Jitlog

namespace Profile

/-- No record of a profile fails, and none touches the fault. -/
theorem atomic_apply (offset : Nat) (record : Record) :
    (format.apply offset record).Atomic Profile.fault := by
  apply Update.atomic_modify
  intro profile
  cases record <;> rfl

/-- The ledger of a profile. -/
def ledger : format.Ledger where
  fault? := Profile.fault
  decodedUntil := Profile.decodedUntil
  healed profile := { profile with fault := none }
  fault_start _ := rfl
  eq_of_error failed := (atomic_apply _ _).eq_of_error failed
  fault_of_ok applied := (atomic_apply _ _).view_of_ok applied
  fault_advance _ _ := rfl
  decodedUntil_advance _ _ := rfl
  fault_stop _ _ := rfl
  decodedUntil_stop _ _ := rfl
  healed_stop profile fault sound := by
    cases profile
    cases sound
    rfl

end Profile

namespace LogReader

/-- A log of either format, of any version and word size, which has a fault
decodes to what the bytes in front of the fault decode to: these have none, and
the models are the same but for the fault.  Behind at least one good record the
fault is where that record ends.  No record which fails has changed the model. -/
theorem model_of_fault
    [Stream.Decompressor]
    {bytes : Bytes}
    (plain : ¬ Stream.Zstd.magic <+: bytes)
    (chunk shorterChunk : Nat) :
    (∀ reader, open? Jitlog.format (.ofBytes bytes) chunk = .ok reader →
      ∃ forest, reader.readToEnd = .ok forest ∧
        ∀ fault, forest.fault = some fault →
          ∃ shorter,
            open? Jitlog.format (.ofBytes (bytes.take fault.offset)) shorterChunk =
              .ok shorter ∧
            shorter.readToEnd = .ok { forest with fault := none } ∧
            (reader.drain.decoded ≠ [] → forest.decodedUntil = fault.offset)) ∧
    (∀ reader, open? Profile.format (.ofBytes bytes) chunk = .ok reader →
      ∃ profile, reader.readToEnd = .ok profile ∧
        ∀ fault, profile.fault = some fault →
          ∃ shorter,
            open? Profile.format (.ofBytes (bytes.take fault.offset)) shorterChunk =
              .ok shorter ∧
            shorter.readToEnd = .ok { profile with fault := none } ∧
            (reader.drain.decoded ≠ [] → profile.decodedUntil = fault.offset)) ∧
    (∀ offset record forest error later,
      (Jitlog.format.apply offset record).run forest = .error error later → later = forest) ∧
    ∀ offset record profile error later,
      (Profile.format.apply offset record).run profile = .error error later →
        later = profile := by
  refine ⟨fun reader answered => ?_, fun reader answered => ?_, fun _ _ _ _ _ failed => ?_,
    fun _ _ _ _ _ failed => ?_⟩
  · obtain ⟨forest, ended, before⟩ := readToEnd_of_fault Jitlog.ledger plain answered shorterChunk
    refine ⟨forest, ended, ?_⟩
    intro fault found
    obtain ⟨shorter, opened, endedShorter, _, place⟩ := before fault found
    exact ⟨shorter, opened, endedShorter, place⟩
  · obtain ⟨profile, ended, before⟩ := readToEnd_of_fault Profile.ledger plain answered shorterChunk
    refine ⟨profile, ended, ?_⟩
    intro fault found
    obtain ⟨shorter, opened, endedShorter, _, place⟩ := before fault found
    exact ⟨shorter, opened, endedShorter, place⟩
  · exact Jitlog.ledger.eq_of_error failed
  · exact Profile.ledger.eq_of_error failed

/-- A trace log in which a trace is aborted, and then input arguments are set while
there is no trace. -/
def orphanedArguments : Bytes :=
  [0x23, 3, 0, 0, 0, 0, 0, 0] ++ [0x1f, 1, 0, 0, 0, 0, 0, 0, 0] ++ [0x10, 0, 0, 0, 0]

/-- The header of the log in which input arguments are set without a trace. -/
def orphanedHeader : Header :=
  { formatFlag := 0x23, version := 3, words := .eight, machine := "" }

/-- The forest in front of the input arguments. -/
def orphanedForest : Forest :=
  Jitlog.format.advance ((Jitlog.format.start orphanedHeader).abortTrace 1) 17

attribute [local instance] Stream.Zstd.decompressor

set_option maxRecDepth 4000 in
/-- The fault of the log in which input arguments are set without a trace. -/
theorem model_of_orphanedArguments :
    ∃ reader forest shorter,
      open? Jitlog.format (.ofBytes orphanedArguments) 16 = .ok reader ∧
      reader.readToEnd = .ok forest ∧
      forest.fault = some { offset := 17, marker := some 0x10, error := .noCurrentTrace } ∧
      open? Jitlog.format (.ofBytes (orphanedArguments.take 17)) 16 = .ok shorter ∧
      shorter.readToEnd = .ok { forest with fault := none } ∧
      forest.decodedUntil = 17 := by
  have plain : ¬ Stream.Zstd.magic <+: orphanedArguments := by decide
  have parsed : Header.parse orphanedArguments Jitlog.format.flag =
      .ok (some (orphanedHeader, 8)) := rfl
  obtain ⟨markers, supported, aborts, sets⟩ :
      ∃ markers, Jitlog.format.markers? orphanedHeader.version = some markers ∧
        markers.lookup 0x1f = .ok .abortTrace ∧ markers.lookup 0x10 = .ok .inputArguments := by
    exact ⟨_, rfl, rfl, rfl⟩
  obtain ⟨reader, answered, opened, prompt⟩ := opened_ofBytes plain parsed supported 16
  obtain ⟨forest, ended, before⟩ := (model_of_fault plain 16 16).1 reader answered
  obtain ⟨known, decoded⟩ := readToEnd_eq_outlook opened.streams prompt
  have aborted : Jitlog.format.judge { header := orphanedHeader, markers }
      (Jitlog.format.start orphanedHeader) 8 (orphanedArguments.drop 8) =
        .decoded 0x1f 9 orphanedForest := by
    change LogFormat.judge _ _ _ _ (0x1f :: _) = _
    simp only [LogFormat.judge, aborts]
    rfl
  have refused : Jitlog.format.judge { header := orphanedHeader, markers } orphanedForest 17
      ((orphanedArguments.drop 8).drop 9) = .refused 0x10 .noCurrentTrace orphanedForest := by
    change LogFormat.judge _ _ _ _ (0x10 :: _) = _
    simp only [LogFormat.judge, sets]
    rfl
  have outlook := opened.outlook_eq (by decide) []
  rw [Stream.contentOf_nil, List.append_nil, LogFormat.decodeFrom_of_decoded (by decide) aborted,
    LogFormat.decodeFrom_of_refused (by decide) refused] at outlook
  rw [ended, outlook] at known
  rw [outlook] at decoded
  cases known
  obtain ⟨shorter, openedShorter, endedShorter, place⟩ := before _ rfl
  refine ⟨reader, _, shorter, answered, ended, rfl, openedShorter, endedShorter, place ?_⟩
  rw [decoded]
  exact List.cons_ne_nil _ _

end LogReader
end RuntimeLog
