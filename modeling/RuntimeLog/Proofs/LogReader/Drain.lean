import RuntimeLog.Proofs.LogReader.Session

/-!
# Runs to the end

Decoding all records of a stream which does not pause is a session.  It stops
where a record is pending only when no more bytes are there.  A reader of such a
stream never waits: it decodes what the bytes ahead of it say.
-/

namespace RuntimeLog

/-- The marker and the offset of a record which was decoded. -/
def Status.record? : Status → Option (UInt8 × Nat)
  | .decoded marker offset => some (marker, offset)
  | _ => none

namespace LogReader

variable [Stream.Decompressor]
variable {Marker Record Model : Type} {format : LogFormat Marker Record Model}

/-- The model in the end of a run.  A run which was told that a record is pending
is the whole log. -/
def Drained.outcome (drained : Drained format) : Except String Model :=
  match drained.last with
  | .error reason => .error reason
  | .ok .pending => .ok drained.reader.finish.model
  | .ok _ => .ok drained.reader.model

/-- Decoding all records gives the model in the end of a run. -/
theorem readToEnd_eq (reader : LogReader format) : reader.readToEnd = reader.drain.outcome := rfl

/-- A run over the records of a stream which does not pause is a session. -/
theorem session_of_drainFrom
    {reader : LogReader format}
    (streams : reader.Streams)
    (prompt : reader.buffer.source.Prompt)
    (found : List (UInt8 × Nat)) :
    ∃ (answers : List Status) (model : Model),
      Session reader [] (answers.map .ok) model ∧
      (reader.drainFrom found).outcome = .ok model ∧
      (reader.drainFrom found).decoded = found.reverse ++ answers.filterMap Status.record? := by
  fun_induction drainFrom reader found with
  | case1 reader found marker offset later answered inductionHypothesis =>
      obtain ⟨_, buffer, content, used, model, grows, _, rfl, rfl⟩ :=
        decoded_of_next streams answered
      obtain ⟨answers, model, session, outcome, decoded⟩ :=
        inductionHypothesis (streams.of_decoded grows used model) (grows.prompt prompt)
      refine ⟨.decoded marker buffer.offset :: answers, model, .decoded answered session, outcome,
        ?_⟩
      rw [decoded]
      simp [Status.record?]
  | case2 reader found last later other answered =>
      by_cases complete : format.isComplete reader.model
      · have ended := next_of_complete streams complete
        rw [ended] at answered
        cases answered
        exact ⟨[.ended], _, .stopped ended (Or.inl rfl), rfl, by simp [Status.record?]⟩
      · have answers := answers_next streams complete
        rw [answered] at answers
        cases answers with
        | @pending buffer content grows judged paused =>
            have exhausted := paused.content_eq_nil grows prompt
            exact ⟨[], _, .finished answered exhausted, rfl, by simp⟩
        | faulted grows judged =>
            exact ⟨[.faulted], _, .stopped answered (Or.inr (Or.inl rfl)), rfl,
              by simp [Status.record?]⟩
        | @decoded buffer content marker used model grows judged =>
            exact absurd rfl (other marker buffer.offset)

/-- Decoding all records of a stream which does not pause gives what its bytes
decode to. -/
theorem readToEnd_eq_outlook
    {reader : LogReader format}
    (streams : reader.Streams)
    (prompt : reader.buffer.source.Prompt) :
    reader.readToEnd = .ok (reader.outlook []).2 ∧
      reader.drain.decoded = (reader.outlook []).1.filterMap Status.record? := by
  obtain ⟨answers, model, session, outcome, decoded⟩ := session_of_drainFrom streams prompt []
  obtain ⟨sameAnswers, rfl⟩ := outlook_of_session session streams (by simp)
  have same : answers = (reader.outlook []).1 :=
    (List.map_inj_right fun _ _ => Except.ok.inj).mp sameAnswers
  rw [readToEnd_eq, ← same]
  exact ⟨outcome, decoded⟩

/-! ## Streams which do not pause -/

/-- A reader which stands at an offset of a stream which does not pause, with some
bytes ahead. -/
structure Stands
    (reader : LogReader format)
    (dialect : Dialect Marker)
    (model : Model)
    (offset : Nat)
    (bytes : Bytes) : Prop where
  streams : reader.Streams
  prompt : reader.buffer.source.Prompt
  dialect_eq : reader.dialect = dialect
  model_eq : reader.model = model
  offset_eq : reader.buffer.offset = offset
  ahead_eq : reader.buffer.ahead = bytes

variable {reader : LogReader format} {dialect : Dialect Marker} {model : Model} {offset : Nat}
variable {bytes : Bytes} {marker : UInt8}

/-- A log which was opened stands behind its header. -/
theorem Opened.stands
    {header : Header}
    {markers : MarkerTable Marker}
    {size : Nat}
    (opened : reader.Opened header markers size bytes)
    (prompt : reader.buffer.source.Prompt) :
    reader.Stands { header, markers } (format.start header) size (bytes.drop size) :=
  ⟨opened.streams, prompt, opened.dialect_eq, opened.model_eq, opened.offset_eq, opened.ahead_eq⟩

namespace Stands

/-- The bytes ahead are judged as they are. -/
theorem judge_eq (stands : reader.Stands dialect model offset bytes) :
    format.judge reader.dialect reader.model reader.buffer.offset (reader.ahead []) =
      format.judge dialect model offset bytes := by
  rw [LogReader.ahead, Stream.contentOf_nil, List.append_nil, stands.dialect_eq, stands.model_eq,
    stands.offset_eq, stands.ahead_eq]

/-- A reader in front of a good record decodes it, and then stands behind it. -/
theorem next_of_decoded
    (stands : reader.Stands dialect model offset bytes)
    {used : Nat}
    {next : Model}
    (incomplete : ¬ format.isComplete model)
    (judged : format.judge dialect model offset bytes = .decoded marker used next) :
    ∃ later, reader.next = (.ok (.decoded marker offset), later) ∧
      later.Stands dialect next (offset + used) (bytes.drop used) := by
  rw [← stands.model_eq] at incomplete
  have answers := answers_next stands.streams incomplete
  rw [← stands.judge_eq] at judged
  cases answer : reader.next with
  | mk status later =>
      rw [answer] at answers
      cases answers with
      | @pending buffer content grows unfinished paused =>
          -- nothing is left in the stream, so that the record would be unfinished
          have exhausted := paused.content_eq_nil grows stands.prompt
          rw [ahead_of_sameAhead grows.sameAhead, exhausted, Stream.contentOf_nil, List.append_nil,
            List.append_nil, ← grows.offset_eq, unfinished] at judged
          cases judged
      | faulted grows refused =>
          rw [judge_ahead grows.sameAhead refused (by simp) []] at judged
          cases judged
      | @decoded buffer content other count found grows decoded =>
          rw [judge_ahead grows.sameAhead decoded (by simp) []] at judged
          cases judged
          have within := (LogFormat.used_of_judge decoded).2
          refine ⟨_, by rw [grows.offset_eq, stands.offset_eq], stands.streams.of_decoded grows _ _,
            grows.prompt stands.prompt, stands.dialect_eq, rfl, ?_, ?_⟩
          · rw [← stands.offset_eq, ← grows.offset_eq]
            rfl
          · rw [← stands.ahead_eq, ← grows.ahead_eq]
            exact (List.drop_append_of_le_length within).symm

/-- A reader in front of a record with a fault stops there. -/
theorem next_of_refused
    (stands : reader.Stands dialect model offset bytes)
    {error : DecodeError}
    {left : Model}
    (incomplete : ¬ format.isComplete model)
    (judged : format.judge dialect model offset bytes = .refused marker error left) :
    ∃ later, reader.next = (.ok .faulted, later) ∧
      later.phase = .faulted ∧
      later.model = format.stop left { offset, marker := some marker, error } ∧
      later.nextOffset = offset := by
  rw [← stands.model_eq] at incomplete
  have answers := answers_next stands.streams incomplete
  rw [← stands.judge_eq] at judged
  cases answer : reader.next with
  | mk status later =>
      rw [answer] at answers
      cases answers with
      | @pending buffer content grows unfinished paused =>
          have exhausted := paused.content_eq_nil grows stands.prompt
          rw [ahead_of_sameAhead grows.sameAhead, exhausted, Stream.contentOf_nil, List.append_nil,
            List.append_nil, ← grows.offset_eq, unfinished] at judged
          cases judged
      | faulted grows refused =>
          rw [judge_ahead grows.sameAhead refused (by simp) []] at judged
          cases judged
          have place := grows.offset_eq.trans stands.offset_eq
          exact ⟨_, rfl, rfl, by rw [← place]; rfl, place⟩
      | decoded grows decoded =>
          rw [judge_ahead grows.sameAhead decoded (by simp) []] at judged
          cases judged

/-- Decoding all records gives what the bytes ahead decode to. -/
theorem readToEnd_eq (stands : reader.Stands dialect model offset bytes) :
    reader.readToEnd = .ok (format.decodeFrom dialect model offset bytes).2 := by
  rw [(readToEnd_eq_outlook stands.streams stands.prompt).1, outlook, LogReader.ahead,
    Stream.contentOf_nil, List.append_nil, stands.dialect_eq, stands.model_eq, stands.offset_eq,
    stands.ahead_eq]

end Stands

/-- A log which opens has a header, behind which its reader stands. -/
theorem exists_stands_of_open
    {chunk : Nat}
    (plain : ¬ Stream.Zstd.magic <+: bytes)
    (answered : open? format (.ofBytes bytes) chunk = .ok reader) :
    ∃ header size markers,
      Header.parse bytes format.flag = .ok (some (header, size)) ∧
      format.markers? header.version = some markers ∧
      reader.Stands { header, markers } (format.start header) size (bytes.drop size) := by
  obtain ⟨header, size, markers, parsed, supported⟩ := exists_header_of_ofBytes plain answered
  obtain ⟨same, reopened, opened, prompt⟩ := opened_ofBytes plain parsed supported chunk
  cases answered.symm.trans reopened
  exact ⟨header, size, markers, parsed, supported, opened.stands prompt⟩

end LogReader
end RuntimeLog
