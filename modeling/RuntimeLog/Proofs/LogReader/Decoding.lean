import RuntimeLog.LogReader
import RuntimeLog.Proofs.Stream.Buffering

/-!
# Decoding of byte strings

What the bytes from a record boundary on say about the record which starts
there, and what a whole log decodes to.  Neither knows of buffers or of bytes
which are still to arrive.  A reader in front of an uncompressed stream answers
with what the bytes say.
-/

namespace RuntimeLog

/-- What bytes say about the record which starts with them. -/
inductive Verdict (Model : Type) where
  /-- They end inside the record. -/
  | unfinished
  /-- The record has a fault.  The model is as the record left it. -/
  | refused (marker : UInt8) (error : DecodeError) (model : Model)
  /-- The record is good, and takes up some of the bytes. -/
  | decoded (marker : UInt8) (used : Nat) (model : Model)

/-- The verdict with a change in its model. -/
def Verdict.map {Model : Type} (change : Model → Model) : Verdict Model → Verdict Model
  | unfinished => .unfinished
  | refused marker error model => .refused marker error (change model)
  | decoded marker used model => .decoded marker used (change model)

/-- What the header of a log says about its records. -/
structure Dialect (Marker : Type) where
  header : Header
  markers : MarkerTable Marker

namespace LogFormat

variable {Marker Record Model : Type}

/-- Judge a record behind its marker by what was read of it. -/
def judgePayload
    (format : LogFormat Marker Record Model)
    (model : Model)
    (offset : Nat)
    (marker : UInt8) : Outcome DecodeError Record → Verdict Model
  | .incomplete => .unfinished
  | .malformed error _ => .refused marker error model
  | .complete record used =>
      match (format.apply (offset + 1) record).run model with
      | .error error model => .refused marker error model
      | .ok () model => .decoded marker (1 + used) (format.advance model (offset + 1 + used))

/-- Judge the record at the start of some bytes. -/
def judge
    (format : LogFormat Marker Record Model)
    (dialect : Dialect Marker)
    (model : Model)
    (offset : Nat) : Bytes → Verdict Model
  | [] => .unfinished
  | marker :: payload =>
      match dialect.markers.lookup marker with
      | .error error => .refused marker error model
      | .ok meaning =>
          format.judgePayload model offset marker
            ((format.payload dialect.header model meaning).run (offset + 1) payload)

variable {format : LogFormat Marker Record Model} {dialect : Dialect Marker}
variable {model next : Model} {offset used : Nat} {bytes : Bytes} {marker : UInt8}

/-- A verdict does not depend on what follows the bytes which it is about. -/
theorem judge_append
    (settled : format.judge dialect model offset bytes ≠ .unfinished)
    (more : Bytes) :
    format.judge dialect model offset (bytes ++ more) =
      format.judge dialect model offset bytes := by
  cases bytes with
  | nil => simp [judge] at settled
  | cons marker payload =>
      simp only [judge, List.cons_append] at settled ⊢
      cases found : dialect.markers.lookup marker with
      | error error => rfl
      | ok meaning =>
          have ended : (format.payload dialect.header model meaning).run (offset + 1) payload ≠
              .incomplete := by
            intro incomplete
            simp [found, incomplete, judgePayload] at settled
          simp only [Reading.run_append ended]

/-- The verdict on all bytes is that on the first ones, where these are all unless they are
enough. -/
theorem judge_of_held
    {held : Bytes}
    (held_le : held <+: bytes)
    (whole : format.judge dialect model offset held = .unfinished → held = bytes) :
    format.judge dialect model offset bytes = format.judge dialect model offset held := by
  by_cases unfinished : format.judge dialect model offset held = .unfinished
  · rw [whole unfinished]
  · obtain ⟨more, rfl⟩ := held_le
    exact judge_append unfinished more

/-- A good record takes up at least its marker, and no more than there is. -/
theorem used_of_judge
    (judged : format.judge dialect model offset bytes = .decoded marker used next) :
    0 < used ∧ used ≤ bytes.length := by
  cases bytes with
  | nil => cases judged
  | cons first payload =>
      rw [judge] at judged
      split at judged
      · cases judged
      · unfold judgePayload at judged
        split at judged
        · cases judged
        · cases judged
        · rename_i complete
          split at judged
          · cases judged
          · cases judged
            have bound := Reading.used_le_of_run complete
            rw [List.length_cons]
            omega

/-- The model behind a log which ends with some unread bytes: they are a
truncated record. -/
def finished
    (format : LogFormat Marker Record Model)
    (model : Model)
    (offset : Nat) : Bytes → Model
  | [] => model
  | marker :: _ => format.stop model { offset, marker := some marker, error := .truncated }

/-- The answers to requests for the records of a log, from an offset on, and the
model in the end. -/
def decodeFrom
    (format : LogFormat Marker Record Model)
    (dialect : Dialect Marker)
    (model : Model)
    (offset : Nat)
    (bytes : Bytes) : List Status × Model :=
  if format.isComplete model then ([.ended], model)
  else
    match _judged : format.judge dialect model offset bytes with
    | .unfinished => ([], format.finished model offset bytes)
    | .refused marker error next =>
        ([.faulted], format.stop next { offset, marker := some marker, error })
    | .decoded marker used next =>
        let rest := format.decodeFrom dialect next (offset + used) (bytes.drop used)
        (.decoded marker offset :: rest.1, rest.2)
termination_by bytes.length
decreasing_by
  have bounds := used_of_judge _judged
  rw [List.length_drop]
  omega

/-- A complete log ends, whatever follows. -/
theorem decodeFrom_of_complete (complete : format.isComplete model) :
    format.decodeFrom dialect model offset bytes = ([.ended], model) := by
  unfold decodeFrom
  rw [if_pos complete]

/-- A log which ends inside a record is truncated there. -/
theorem decodeFrom_of_unfinished
    (incomplete : ¬ format.isComplete model)
    (judged : format.judge dialect model offset bytes = .unfinished) :
    format.decodeFrom dialect model offset bytes =
      ([], format.finished model offset bytes) := by
  unfold decodeFrom
  rw [if_neg incomplete]
  split <;> simp_all

/-- A record with a fault ends the log. -/
theorem decodeFrom_of_refused
    {error : DecodeError}
    (incomplete : ¬ format.isComplete model)
    (judged : format.judge dialect model offset bytes = .refused marker error next) :
    format.decodeFrom dialect model offset bytes =
      ([.faulted], format.stop next { offset, marker := some marker, error }) := by
  unfold decodeFrom
  rw [if_neg incomplete]
  split <;> simp_all

/-- Behind a good record the log goes on. -/
theorem decodeFrom_of_decoded
    (incomplete : ¬ format.isComplete model)
    (judged : format.judge dialect model offset bytes = .decoded marker used next) :
    format.decodeFrom dialect model offset bytes =
      (.decoded marker offset ::
          (format.decodeFrom dialect next (offset + used) (bytes.drop used)).1,
        (format.decodeFrom dialect next (offset + used) (bytes.drop used)).2) := by
  rw [decodeFrom, if_neg incomplete]
  split <;> simp_all

end LogFormat

namespace LogReader

variable [Stream.Decompressor]
variable {Marker Record Model : Type} {format : LogFormat Marker Record Model}

/-- What the header said about the records. -/
def dialect (reader : LogReader format) : Dialect Marker :=
  { header := reader.header, markers := reader.markers }

/-- A reader with another state of its buffer. -/
def withBuffer (reader : LogReader format) (buffer : Stream.Buffer) : LogReader format :=
  { reader with buffer }

/-- A reader which consumed a record from a state of its buffer. -/
def past
    (reader : LogReader format)
    (buffer : Stream.Buffer)
    (used : Nat)
    (model : Model) : LogReader format :=
  { reader with buffer := buffer.consume used, model }

/-- A reader which still decodes, in front of an uncompressed stream. -/
structure Streams (reader : LogReader format) : Prop where
  phase_eq : reader.phase = .streaming
  uncompressed : reader.buffer.Uncompressed
  plain : reader.buffer.encoding = .plain

/-- The answers of a reader which decodes one record.  Its buffer may have grown
before; beyond that, the answer is the verdict on the unread bytes. -/
inductive Answers (reader : LogReader format) : Except String Status × LogReader format → Prop
  | pending
      {buffer : Stream.Buffer}
      {content : Bytes}
      (grows : reader.buffer.Grows content buffer)
      (judged : format.judge reader.dialect reader.model buffer.offset buffer.unread = .unfinished)
      (paused : reader.buffer.Paused buffer) :
      Answers reader (.ok .pending, reader.withBuffer buffer)
  | faulted
      {buffer : Stream.Buffer}
      {content : Bytes}
      {marker : UInt8}
      {error : DecodeError}
      {model : Model}
      (grows : reader.buffer.Grows content buffer)
      (judged : format.judge reader.dialect reader.model buffer.offset buffer.unread =
        .refused marker error model) :
      Answers reader (.ok .faulted, { reader with buffer, model }.stopAt marker error)
  | decoded
      {buffer : Stream.Buffer}
      {content : Bytes}
      {marker : UInt8}
      {used : Nat}
      {model : Model}
      (grows : reader.buffer.Grows content buffer)
      (judged : format.judge reader.dialect reader.model buffer.offset buffer.unread =
        .decoded marker used model) :
      Answers reader (.ok (.decoded marker buffer.offset), reader.past buffer used model)

/-- A reader which grew first answers as it would have without that. -/
theorem Answers.of_grows
    {reader : LogReader format}
    {buffer : Stream.Buffer}
    {content : Bytes}
    {answer : Except String Status × LogReader format}
    (grows : reader.buffer.Grows content buffer)
    (smaller : buffer.source.size < reader.buffer.source.size)
    (answers : (reader.withBuffer buffer).Answers answer) :
    reader.Answers answer := by
  cases answers with
  | pending further judged paused =>
      exact .pending (grows.trans further) judged (paused.of_grows grows smaller)
  | faulted further judged => exact .faulted (grows.trans further) judged
  | decoded further judged => exact .decoded (grows.trans further) judged

/-- Behind a known marker, a reader answers with the verdict. -/
theorem answers_decodeBehind
    {reader : LogReader format}
    {marker : UInt8}
    {payload : Bytes}
    {meaning : Marker}
    (uncompressed : reader.buffer.Uncompressed)
    (unread : reader.buffer.unread = marker :: payload)
    (found : reader.markers.lookup marker = .ok meaning) :
    reader.Answers (reader.decodeBehind marker meaning) := by
  obtain ⟨outcome, later, answered, reads⟩ :=
    Stream.Buffer.reads_of_readFrom uncompressed (by rw [unread]; simp)
      (.start (format.payload reader.header reader.model meaning) (reader.buffer.offset + 1)
        (reader.buffer.unread.drop 1))
  obtain ⟨content, grows⟩ := reads.grows
  have known := reads.outcome_eq
  rw [grows.unread_eq, unread, List.cons_append, List.drop_one, List.tail_cons] at known
  have judged : format.judge reader.dialect reader.model later.offset later.unread =
      format.judgePayload reader.model later.offset marker outcome := by
    rw [grows.unread_eq, unread, List.cons_append, LogFormat.judge]
    simp only [dialect, found, grows.offset_eq, known]
  unfold decodeBehind
  rw [Stream.Buffer.read, answered]
  cases outcome with
  | incomplete => exact .pending grows judged (reads.paused rfl)
  | malformed error used => exact .faulted grows judged
  | complete record used =>
      simp only [LogFormat.judgePayload] at judged ⊢
      cases applied : (format.apply (later.offset + 1) record).run reader.model with
      | error error model =>
          rw [applied] at judged
          exact .faulted grows judged
      | ok value model =>
          rw [applied] at judged
          exact .decoded grows judged

/-- A reader answers with the verdict on the unread bytes. -/
theorem answers_decodeOne
    {reader : LogReader format}
    (uncompressed : reader.buffer.Uncompressed) :
    reader.Answers reader.decodeOne := by
  fun_induction decodeOne reader with
  | case1 reader marker payload unread error found =>
      refine .faulted (.refl uncompressed) ?_
      rw [unread, LogFormat.judge]
      simp only [dialect, found]
  | case2 reader marker payload unread meaning found =>
      exact answers_decodeBehind uncompressed unread found
  | case3 reader unread reason buffer filled =>
      exact absurd filled (Stream.Buffer.fill_ne_error uncompressed)
  | case4 reader unread buffer filled =>
      obtain ⟨grows, _, paused⟩ := Stream.Buffer.paused_of_fill_false uncompressed filled
      refine .pending grows ?_ paused
      rw [grows.unread_eq, unread, List.append_nil, LogFormat.judge]
  | case5 reader unread buffer filled inductionHypothesis =>
      obtain ⟨content, grows⟩ := Stream.Buffer.grows_of_fill_true uncompressed filled
      exact .of_grows grows (Stream.Buffer.size_of_fill filled).1
        (inductionHypothesis grows.uncompressed)

end LogReader
end RuntimeLog
