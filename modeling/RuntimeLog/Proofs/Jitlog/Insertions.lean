import RuntimeLog.Proofs.Forest.Annotations
import RuntimeLog.Proofs.Jitlog.Replay
import RuntimeLog.Stream.Zstd.Decoder

/-!
# Inserted records

Utility records can be inserted between any records of a trace log.  The log decodes to
the same structure as before, with the same fault at another place.
-/

namespace RuntimeLog

open RuntimeLog.Forest (Annotated)

/-- Verdicts on the same record by a forest and an annotated one, which say the same. -/
inductive Verdict.Agrees (remarks : List Anomaly) : Verdict Forest → Verdict Forest → Prop
  | unfinished : Agrees remarks .unfinished .unfinished
  | refused
      {marker : UInt8}
      {error cause : DecodeError}
      {left kept : Forest}
      (annotated : left.Annotated remarks kept)
      (same : cause.placeless = error.placeless) :
      Agrees remarks (.refused marker error left) (.refused marker cause kept)
  | decoded
      {marker : UInt8}
      {used : Nat}
      {next after : Forest}
      (annotated : next.Annotated remarks after) :
      Agrees remarks (.decoded marker used next) (.decoded marker used after)

namespace Jitlog

/-- The records of a log from some place on, and the same ones with utility records
inserted between them.  What is behind a fault does not matter. -/
inductive Padded (dialect : Dialect Marker) :
    Forest → Nat → Bytes → List Record → Bytes → Prop
  /-- The log ends here, maybe inside a record. -/
  | ended
      {forest : Forest}
      {offset : Nat}
      {bytes : Bytes}
      (judged : format.judge dialect forest offset bytes = .unfinished) :
      Padded dialect forest offset bytes [] bytes
  /-- The next record has a fault. -/
  | refused
      {forest left : Forest}
      {offset : Nat}
      {front : Bytes}
      {marker : UInt8}
      {error : DecodeError}
      (judged : format.judge dialect forest offset front = .refused marker error left)
      (rest behind : Bytes) :
      Padded dialect forest offset (front ++ rest) [] (front ++ behind)
  /-- The next record is good. -/
  | decoded
      {forest next : Forest}
      {offset : Nat}
      {front rest behind : Bytes}
      {marker : UInt8}
      {inserted : List Record}
      (judged : format.judge dialect forest offset front = .decoded marker front.length next)
      (padded : Padded dialect next (offset + front.length) rest inserted behind) :
      Padded dialect forest offset (front ++ rest) inserted (front ++ behind)
  /-- A utility record is inserted here. -/
  | inserted
      {forest : Forest}
      {offset : Nat}
      {bytes behind : Bytes}
      {record : Record}
      {inserted : List Record}
      (utility : record.isUtility)
      (writable : record.Writable dialect.header.words dialect.header.version)
      (padded : Padded dialect forest offset bytes inserted behind) :
      Padded dialect forest offset bytes (record :: inserted)
        (record.encode dialect.header.words ++ behind)

variable {plain richer forest : Forest} {remarks : List Anomaly} {dialect : Dialect Marker}
variable {offset : Nat} {bytes : Bytes}

/-! ## Verdicts -/

/-- How a payload is read does not depend on annotations. -/
theorem reading_of_annotated
    (annotated : plain.Annotated remarks richer)
    (words : WordSize)
    (version : UInt16)
    (marker : Marker) :
    Record.reading words version richer marker = Record.reading words version plain marker := by
  have layouts : richer.currentLayout = plain.currentLayout := by
    rw [← Forest.currentLayout_skeleton, annotated.skeleton_eq, Forest.currentLayout_skeleton]
  cases marker with
  | mergePoint => exact congrArg Record.mergePointReading layouts
  | _ => rfl

/-- A record has the same meaning in a log and at any place of an annotated one. -/
theorem agrees_judge
    (annotated : plain.Annotated remarks richer)
    (dialect : Dialect Marker)
    (offset other : Nat)
    (bytes : Bytes) :
    Verdict.Agrees remarks (format.judge dialect plain offset bytes)
      (format.judge dialect richer other bytes) := by
  cases bytes with
  | nil => exact .unfinished
  | cons marker payload =>
      rw [LogFormat.judge, LogFormat.judge]
      cases dialect.markers.lookup marker with
      | error error => exact .refused annotated rfl
      | ok meaning =>
          dsimp only
          have same : format.payload dialect.header richer meaning =
              format.payload dialect.header plain meaning :=
            reading_of_annotated annotated _ _ meaning
          have ignores : (format.payload dialect.header plain meaning).IgnoresPlace
              DecodeError.placeless :=
            Record.covers_ignoresPlace.reading _ _ plain meaning
          rw [same]
          cases ran : (format.payload dialect.header plain meaning).run (offset + 1) payload with
          | incomplete =>
              rw [ignores.run_eq_incomplete ran]
              exact .unfinished
          | malformed error used =>
              obtain ⟨cause, there, reasons⟩ := ignores.run_eq_malformed ran (other + 1)
              rw [there]
              exact .refused annotated reasons
          | complete record used =>
              rw [ignores.run_eq_complete ran]
              unfold LogFormat.judgePayload
              dsimp only
              cases applied : (format.apply (offset + 1) record).run plain with
              | ok value next =>
                  obtain ⟨after, there, still⟩ := annotated.apply applied (other + 1)
                  rw [show (format.apply (other + 1) record).run richer = .ok () after from there]
                  exact .decoded (still.advance _ _)
              | error error left =>
                  obtain ⟨cause, kept, there, reasons⟩ :=
                    annotated.exists_error applied (other + 1)
                  rw [show (format.apply (other + 1) record).run richer = .error cause kept from
                    there]
                  cases ledger.eq_of_error applied
                  cases ledger.eq_of_error there
                  exact .refused annotated reasons

/-! ## Written records -/

section Written

variable {header : Header} {markers : MarkerTable Marker} {record : Record}
variable {inserted : List Record} {rest behind : Bytes}

/-- A record which was written and can be applied is one of the records of a log. -/
theorem padded_of_applied
    {next : Forest}
    (known : ∀ marker meaning, markers.lookup marker = .ok meaning ↔
      meaning.IsIn header.version ∧ meaning.byte = marker)
    (writable : record.Writable header.words header.version)
    (follows : record.Follows forest)
    (applied : (format.apply (offset + 1) record).run forest = .ok () next)
    (padded : Padded { header, markers }
      (format.advance next (offset + (record.encode header.words).length))
      (offset + (record.encode header.words).length) rest inserted behind) :
    Padded { header, markers } forest offset (record.encode header.words ++ rest) inserted
      (record.encode header.words ++ behind) := by
  have verdict := (judge_encode known writable follows offset []).trans
    (LogFormat.verdictOn_of_ok applied)
  rw [List.append_nil] at verdict
  exact .decoded verdict padded

/-- A record which was written and cannot be applied is the last one of a log. -/
theorem padded_of_refused
    {error : DecodeError}
    {left : Forest}
    (known : ∀ marker meaning, markers.lookup marker = .ok meaning ↔
      meaning.IsIn header.version ∧ meaning.byte = marker)
    (writable : record.Writable header.words header.version)
    (follows : record.Follows forest)
    (failed : (format.apply (offset + 1) record).run forest = .error error left)
    (rest behind : Bytes) :
    Padded { header, markers } forest offset (record.encode header.words ++ rest) []
      (record.encode header.words ++ behind) := by
  have verdict := (judge_encode known writable follows offset []).trans
    (LogFormat.verdictOn_of_error failed)
  rw [List.append_nil] at verdict
  exact .refused verdict rest behind

end Written

/-! ## Decoding -/

/-- A log whose end is inside a record is truncated there with annotations or without. -/
theorem annotated_of_unfinished
    (annotated : plain.Annotated remarks richer)
    (judged : format.judge dialect plain offset bytes = .unfinished)
    (other : Nat) :
    (format.decodeFrom dialect plain offset bytes).2.Annotated remarks
      (format.decodeFrom dialect richer other bytes).2 := by
  have agrees := agrees_judge annotated dialect offset other bytes
  rw [judged] at agrees
  cases there : format.judge dialect richer other bytes with
  | unfinished =>
      rw [LogFormat.decodeFrom_of_unfinished Bool.false_ne_true judged,
        LogFormat.decodeFrom_of_unfinished Bool.false_ne_true there]
      cases bytes with
      | nil => exact annotated
      | cons marker payload => exact annotated.stop rfl
  | refused | decoded =>
      rw [there] at agrees
      cases agrees

/-- A record with a fault has it with annotations or without. -/
theorem annotated_of_refused
    {left : Forest}
    {marker : UInt8}
    {error : DecodeError}
    {front : Bytes}
    (annotated : plain.Annotated remarks richer)
    (judged : format.judge dialect plain offset front = .refused marker error left)
    (rest behind : Bytes)
    (other : Nat) :
    (format.decodeFrom dialect plain offset (front ++ rest)).2.Annotated remarks
      (format.decodeFrom dialect richer other (front ++ behind)).2 := by
  have agrees := agrees_judge annotated dialect offset other front
  rw [judged] at agrees
  cases there : format.judge dialect richer other front with
  | refused again cause kept =>
      have here := (LogFormat.judge_append (by rw [judged]; simp) rest).trans judged
      have same := (LogFormat.judge_append (by rw [there]; simp) behind).trans there
      rw [there] at agrees
      cases agrees with
      | refused still reasons =>
          rw [LogFormat.decodeFrom_of_refused Bool.false_ne_true here,
            LogFormat.decodeFrom_of_refused Bool.false_ne_true same]
          refine still.stop ?_
          unfold Fault.placeless
          dsimp only
          rw [reasons]
  | unfinished | decoded =>
      rw [there] at agrees
      cases agrees

/-- A good record is good with annotations or without, and leaves no others. -/
theorem exists_annotated_of_decoded
    {next : Forest}
    {marker : UInt8}
    {front : Bytes}
    (annotated : plain.Annotated remarks richer)
    (judged : format.judge dialect plain offset front = .decoded marker front.length next)
    (rest behind : Bytes)
    (other : Nat) :
    ∃ after, next.Annotated remarks after ∧
      (format.decodeFrom dialect plain offset (front ++ rest)).2 =
        (format.decodeFrom dialect next (offset + front.length) rest).2 ∧
      (format.decodeFrom dialect richer other (front ++ behind)).2 =
        (format.decodeFrom dialect after (other + front.length) behind).2 := by
  have agrees := agrees_judge annotated dialect offset other front
  rw [judged] at agrees
  cases there : format.judge dialect richer other front with
  | decoded again used after =>
      have here := (LogFormat.judge_append (by rw [judged]; simp) rest).trans judged
      have same := (LogFormat.judge_append (by rw [there]; simp) behind).trans there
      rw [there] at agrees
      cases agrees with
      | decoded still =>
          refine ⟨after, still, ?_, ?_⟩
          · rw [LogFormat.decodeFrom_of_decoded Bool.false_ne_true here, List.drop_left]
          · rw [LogFormat.decodeFrom_of_decoded Bool.false_ne_true same, List.drop_left]
  | unfinished | refused =>
      rw [there] at agrees
      cases agrees

/-- An inserted record annotates the forest, and decoding goes on behind it. -/
theorem exists_annotated_of_inserted
    {header : Header}
    {markers : MarkerTable Marker}
    {record : Record}
    (known : ∀ marker meaning, markers.lookup marker = .ok meaning ↔
      meaning.IsIn header.version ∧ meaning.byte = marker)
    (utility : record.isUtility)
    (writable : record.Writable header.words header.version)
    (annotated : plain.Annotated remarks richer)
    (behind : Bytes)
    (other : Nat) :
    ∃ after, plain.Annotated (remarks ++ record.complaint?.toList) after ∧
      (format.decodeFrom { header, markers } richer other
          (record.encode header.words ++ behind)).2 =
        (format.decodeFrom { header, markers } after
          (other + (record.encode header.words).length) behind).2 := by
  have follows : record.Follows richer := by
    cases record with
    | mergePoint values => cases utility
    | _ => trivial
  obtain ⟨after, applied, noted⟩ := annotated.insert utility (other + 1)
  have written : (script header.words).encode record = record.encode header.words := rfl
  have verdict := (judge_encode known writable follows other behind).trans
    (LogFormat.verdictOn_of_ok applied)
  rw [written] at verdict
  refine ⟨_, noted.advance_right (other + (record.encode header.words).length), ?_⟩
  rw [LogFormat.decodeFrom_of_decoded Bool.false_ne_true verdict, List.drop_left]

/-- From any place on, a log with inserted records decodes to what the log decodes to, with
the remarks of the inserted records. -/
theorem Padded.annotated
    {header : Header}
    {markers : MarkerTable Marker}
    {inserted : List Record}
    {whole : Bytes}
    (known : ∀ marker meaning, markers.lookup marker = .ok meaning ↔
      meaning.IsIn header.version ∧ meaning.byte = marker)
    (padded : Padded { header, markers } plain offset bytes inserted whole)
    (annotated : plain.Annotated remarks richer)
    (other : Nat) :
    (format.decodeFrom { header, markers } plain offset bytes).2.Annotated
      (remarks ++ inserted.filterMap Record.complaint?)
      (format.decodeFrom { header, markers } richer other whole).2 := by
  induction padded generalizing richer remarks other with
  | ended judged =>
      rw [List.filterMap_nil, List.append_nil]
      exact annotated_of_unfinished annotated judged other
  | refused judged rest behind =>
      rw [List.filterMap_nil, List.append_nil]
      exact annotated_of_refused annotated judged rest behind other
  | @decoded forest next offset front rest behind marker inserted judged padded
      inductionHypothesis =>
      obtain ⟨after, still, left, right⟩ :=
        exists_annotated_of_decoded annotated judged rest behind other
      rw [left, right]
      exact inductionHypothesis still (other + front.length)
  | @inserted forest offset bytes behind record inserted utility writable padded
      inductionHypothesis =>
      obtain ⟨after, noted, behindRecord⟩ :=
        exists_annotated_of_inserted known utility writable annotated behind other
      have remarked : remarks ++ (record :: inserted).filterMap Record.complaint? =
          remarks ++ record.complaint?.toList ++ inserted.filterMap Record.complaint? := by
        rw [List.filterMap_cons, List.append_assoc]
        cases record.complaint? <;> rfl
      rw [remarked, behindRecord]
      exact inductionHypothesis noted _

/-- A log decodes to the same structure and to the same fault at another place when
utility records are inserted between its records, and no anomalies are added but those of
these records. -/
theorem annotated_of_padded
    [Stream.Decompressor]
    {header : Header}
    {markers : MarkerTable Marker}
    {inserted : List Record}
    {whole : Bytes}
    (begins : header.Begins formatFlag)
    (supported : markers? header.version = some markers)
    (padded : Padded { header, markers } (Forest.start header) header.encode.length bytes inserted
      whole)
    (chunk other : Nat) :
    ∃ plain richer : Forest,
      format.decodeSource (.ofBytes (header.encode ++ bytes)) chunk = .ok (.ok plain) ∧
      format.decodeSource (.ofBytes (header.encode ++ whole)) other = .ok (.ok richer) ∧
      plain.Annotated (inserted.filterMap Record.complaint?) richer := by
  obtain ⟨_, again, known⟩ := exists_markers begins.supported
  cases again.symm.trans supported
  have opens (bytes : Bytes) (chunk : Nat) :=
    Header.Begins.exists_stands (show header.Begins format.flag from begins) (by decide) again
      bytes chunk
  have annotated := padded.annotated known (.refl _) header.encode.length
  obtain ⟨reader, answered, stands⟩ := opens bytes chunk
  obtain ⟨longer, answeredLonger, standsLonger⟩ := opens whole other
  refine ⟨_, _, ?_, ?_, annotated⟩
  · exact LogReader.decodeSource_eq_ok_iff.mpr ⟨reader, answered, stands.readToEnd_eq⟩
  · exact LogReader.decodeSource_eq_ok_iff.mpr ⟨longer, answeredLonger, standsLonger.readToEnd_eq⟩

/-- A log in which a trace is started, and then an operation is logged whose opcode was
never declared. -/
def undeclaredRecords : List Record :=
  [.startTrace 1 "loop" 0 (some ""), .operation 9 "" (some "") none]

/-- The same log with utility records in front of both of its records. -/
def annotatedRecords : List Record :=
  [.abortTrace 1,
    .startTrace 1 "loop" 0 (some ""),
    .counter 1 Forest.entryCounter 2,
    .patch 4096 [0x90],
    .sourceLines "f" [(1, { indent := 0, text := "x" })],
    .operation 9 "" (some "") none]

attribute [local instance] Stream.Zstd.decompressor

set_option maxRecDepth 8000 in
/-- The fault of the log is not changed by what is inserted in front of it. -/
theorem annotated_of_undeclaredRecords :
    ∃ plain richer : Forest,
      format.decodeSource
          (.ofBytes (patchedHeader.encode ++ undeclaredRecords.flatMap (Record.encode .eight))) 16 =
        .ok (.ok plain) ∧
      format.decodeSource
          (.ofBytes (patchedHeader.encode ++ annotatedRecords.flatMap (Record.encode .eight))) 7 =
        .ok (.ok richer) ∧
      plain.Annotated [.unknownAbortedTrace 1, .unattributedCounter 1 Forest.entryCounter 2]
        richer := by
  have begins : patchedHeader.Begins formatFlag := ⟨rfl, ⟨by decide, by decide⟩, by decide⟩
  obtain ⟨markers, supported, known⟩ := exists_markers begins.supported
  have padded : Padded { header := patchedHeader, markers } (Forest.start patchedHeader)
      patchedHeader.encode.length (undeclaredRecords.flatMap (Record.encode .eight))
      [.abortTrace 1, .counter 1 Forest.entryCounter 2, .patch 4096 [0x90],
        .sourceLines "f" [(1, { indent := 0, text := "x" })]]
      (annotatedRecords.flatMap (Record.encode .eight)) := by
    have writable : ∀ record ∈ annotatedRecords,
        record.Writable patchedHeader.words patchedHeader.version := by decide
    simp only [annotatedRecords, List.forall_mem_cons] at writable
    obtain ⟨abort, start, counter, patch, lines, operation, _⟩ := writable
    simp only [undeclaredRecords, annotatedRecords, List.flatMap_cons, List.flatMap_nil]
    refine .inserted rfl abort (padded_of_applied known start trivial rfl ?_)
    refine .inserted rfl counter (.inserted rfl patch (.inserted rfl lines ?_))
    exact padded_of_refused known operation trivial rfl [] []
  exact annotated_of_padded begins supported padded 16 7

end Jitlog
end RuntimeLog
