import RuntimeLog.Proofs.LogReader.Opening

/-!
# Sessions with a growing stream

A session is the use of a reader by somebody who asks for records until decoding
ends, goes on asking where no bytes are there for now, and says that nothing more
will arrive once that is so.  Its answers and its model are those which the bytes
of the stream decode to, in whatever way the bytes arrive.
-/

namespace RuntimeLog
namespace LogReader

variable [Stream.Decompressor]

open RuntimeLog.Stream (Arrival Source contentOf unpaused)

variable {Marker Record Model : Type} {format : LogFormat Marker Record Model}

/-- A whole session with a reader.  The arrivals are put into the stream in this
order, at any time between two requests.  Answers by which a record is still
pending are left out. -/
inductive Session :
    LogReader format → List Arrival → List (Except String Status) → Model → Prop
  | arrived
      {reader : LogReader format}
      {arrival : Arrival}
      {arrivals : List Arrival}
      {answers : List (Except String Status)}
      {model : Model}
      (rest : Session (reader.push arrival) arrivals answers model) :
      Session reader (arrival :: arrivals) answers model
  | decoded
      {reader later : LogReader format}
      {arrivals : List Arrival}
      {answers : List (Except String Status)}
      {model : Model}
      {marker : UInt8}
      {offset : Nat}
      (answered : reader.next = (.ok (.decoded marker offset), later))
      (rest : Session later arrivals answers model) :
      Session reader arrivals (.ok (.decoded marker offset) :: answers) model
  | pending
      {reader later : LogReader format}
      {arrivals : List Arrival}
      {answers : List (Except String Status)}
      {model : Model}
      (answered : reader.next = (.ok .pending, later))
      (rest : Session later arrivals answers model) :
      Session reader arrivals answers model
  | stopped
      {reader later : LogReader format}
      {arrivals : List Arrival}
      {answer : Except String Status}
      (answered : reader.next = (answer, later))
      (stops : answer = .ok .ended ∨ answer = .ok .faulted ∨ ∃ reason, answer = .error reason) :
      Session reader arrivals [answer] later.model
  | finished
      {reader later : LogReader format}
      (answered : reader.next = (.ok .pending, later))
      (exhausted : later.buffer.source.content = []) :
      Session reader [] [] later.finish.model

/-- A complete log ends. -/
theorem next_of_complete
    {reader : LogReader format}
    (streams : reader.Streams)
    (complete : format.isComplete reader.model) :
    reader.next = (.ok .ended, { reader with phase := .done }) := by
  unfold next
  rw [streams.phase_eq]
  simp [complete]

/-- A log which is not complete goes on with a record. -/
theorem answers_next
    {reader : LogReader format}
    (streams : reader.Streams)
    (incomplete : ¬ format.isComplete reader.model) :
    reader.Answers reader.next := by
  unfold next
  rw [streams.phase_eq]
  simp only [if_neg incomplete]
  exact answers_decodeOne streams.uncompressed

/-- A record which was decoded was judged to be good. -/
theorem decoded_of_next
    {reader later : LogReader format}
    {marker : UInt8}
    {offset : Nat}
    (streams : reader.Streams)
    (answered : reader.next = (.ok (.decoded marker offset), later)) :
    ¬ format.isComplete reader.model ∧
      ∃ buffer content used model,
        reader.buffer.Grows content buffer ∧
        format.judge reader.dialect reader.model buffer.offset buffer.unread =
          .decoded marker used model ∧
        offset = buffer.offset ∧ later = reader.past buffer used model := by
  by_cases complete : format.isComplete reader.model
  · rw [next_of_complete streams complete] at answered
    cases answered
  · have answers := answers_next streams complete
    rw [answered] at answers
    cases answers with
    | decoded grows judged => exact ⟨complete, _, _, _, _, grows, judged, rfl, rfl⟩

/-- A record is pending because the bytes at hand end inside it. -/
theorem pending_of_next
    {reader later : LogReader format}
    (streams : reader.Streams)
    (answered : reader.next = (.ok .pending, later)) :
    ¬ format.isComplete reader.model ∧
      ∃ buffer content,
        reader.buffer.Grows content buffer ∧
        format.judge reader.dialect reader.model buffer.offset buffer.unread = .unfinished ∧
        reader.buffer.Paused buffer ∧ later = reader.withBuffer buffer := by
  by_cases complete : format.isComplete reader.model
  · rw [next_of_complete streams complete] at answered
    cases answered
  · have answers := answers_next streams complete
    rw [answered] at answers
    cases answers with
    | pending grows judged paused => exact ⟨complete, _, _, grows, judged, paused, rfl⟩

/-- A reader of a log which is not complete stops at a record which was judged
to have a fault. -/
theorem faulted_of_next
    {reader later : LogReader format}
    {answer : Except String Status}
    (streams : reader.Streams)
    (incomplete : ¬ format.isComplete reader.model)
    (answered : reader.next = (answer, later))
    (stops : answer = .ok .ended ∨ answer = .ok .faulted ∨ ∃ reason, answer = .error reason) :
    ∃ buffer content marker error model,
      reader.buffer.Grows content buffer ∧
      format.judge reader.dialect reader.model buffer.offset buffer.unread =
        .refused marker error model ∧
      answer = .ok .faulted ∧
      later = { reader with buffer, model }.stopAt marker error := by
  have answers := answers_next streams incomplete
  rw [answered] at answers
  cases answers with
  | pending => simp at stops
  | faulted grows judged => exact ⟨_, _, _, _, _, grows, judged, rfl, rfl⟩
  | decoded => simp at stops

/-- All bytes from the offset of a reader on, with those of further arrivals. -/
def ahead (reader : LogReader format) (arrivals : List Arrival) : Bytes :=
  reader.buffer.ahead ++ contentOf arrivals

/-- What the bytes in front of a reader decode to. -/
def outlook (reader : LogReader format) (arrivals : List Arrival) : List Status × Model :=
  format.decodeFrom reader.dialect reader.model reader.buffer.offset (reader.ahead arrivals)

/-- A reader which was opened sees the records behind the header. -/
theorem Opened.outlook_eq
    {reader : LogReader format}
    {header : Header}
    {markers : MarkerTable Marker}
    {size : Nat}
    {bytes : Bytes}
    (opened : reader.Opened header markers size bytes)
    (within : size ≤ bytes.length)
    (arrivals : List Arrival) :
    reader.outlook arrivals =
      format.decodeFrom { header, markers } (format.start header) size
        ((bytes ++ contentOf arrivals).drop size) := by
  rw [outlook, opened.dialect_eq, opened.model_eq, opened.offset_eq, ahead, opened.ahead_eq,
    List.drop_append_of_le_length within]

/-- A reader still streams after something which is no failure arrived. -/
theorem Streams.push
    {reader : LogReader format}
    (streams : reader.Streams)
    {arrival : Arrival}
    (sound : ∀ reason, arrival ≠ .failure reason) :
    (reader.push arrival).Streams where
  phase_eq := streams.phase_eq
  uncompressed :=
    ⟨streams.uncompressed.flawless.push sound, streams.uncompressed.chunk_ne_zero,
      Or.inl streams.plain⟩
  plain := streams.plain

@[simp] theorem outlook_push
    (reader : LogReader format)
    (arrival : Arrival)
    (arrivals : List Arrival) :
    (reader.push arrival).outlook arrivals = reader.outlook (arrival :: arrivals) := by
  have moved : (reader.push arrival).ahead arrivals = reader.ahead (arrival :: arrivals) := by
    simp [ahead, push, Stream.Buffer.push, Stream.Buffer.ahead, Source.content_push]
  unfold outlook
  rw [moved]
  rfl

/-- A reader whose buffer grew still streams. -/
theorem Streams.of_grows
    {reader : LogReader format}
    {buffer : Stream.Buffer}
    {content : Bytes}
    (streams : reader.Streams)
    (grows : reader.buffer.Grows content buffer) :
    (reader.withBuffer buffer).Streams where
  phase_eq := streams.phase_eq
  uncompressed := grows.uncompressed
  plain := grows.plain streams.plain

/-- Moving bytes into the buffer does not change what the bytes in front of a reader
decode to. -/
theorem outlook_of_sameAhead
    {reader : LogReader format}
    {buffer : Stream.Buffer}
    (same : reader.buffer.SameAhead buffer)
    (arrivals : List Arrival) :
    (reader.withBuffer buffer).outlook arrivals = reader.outlook arrivals := by
  simp only [outlook, ahead, withBuffer, dialect, same.ahead_eq, same.offset_eq]

/-- The unread bytes of a later buffer are the first ones in front of a reader. -/
theorem ahead_of_sameAhead
    {reader : LogReader format}
    {buffer : Stream.Buffer}
    (same : reader.buffer.SameAhead buffer)
    (arrivals : List Arrival) :
    reader.ahead arrivals = buffer.unread ++ (buffer.source.content ++ contentOf arrivals) := by
  unfold ahead
  rw [← same.ahead_eq, Stream.Buffer.ahead, List.append_assoc]

/-- A verdict on the unread bytes is the verdict on all bytes in front of a
reader. -/
theorem judge_ahead
    {reader : LogReader format}
    {buffer : Stream.Buffer}
    {verdict : Verdict Model}
    (same : reader.buffer.SameAhead buffer)
    (judged : format.judge reader.dialect reader.model buffer.offset buffer.unread = verdict)
    (settled : verdict ≠ .unfinished)
    (arrivals : List Arrival) :
    format.judge reader.dialect reader.model reader.buffer.offset (reader.ahead arrivals) =
      verdict := by
  rw [ahead_of_sameAhead same, ← same.offset_eq, LogFormat.judge_append (judged ▸ settled), judged]

/-- A reader which consumed a record still streams. -/
theorem Streams.of_decoded
    {reader : LogReader format}
    {buffer : Stream.Buffer}
    {content : Bytes}
    (streams : reader.Streams)
    (grows : reader.buffer.Grows content buffer)
    (used : Nat)
    (model : Model) :
    (reader.past buffer used model).Streams where
  phase_eq := streams.phase_eq
  uncompressed :=
    ⟨grows.uncompressed.flawless, grows.uncompressed.chunk_ne_zero,
      Or.inl (grows.plain streams.plain)⟩
  plain := grows.plain streams.plain

/-- Behind a record which it consumed, a reader stands in front of the bytes
behind that record. -/
theorem outlook_of_decoded
    {reader : LogReader format}
    {buffer : Stream.Buffer}
    {marker : UInt8}
    {used : Nat}
    {model : Model}
    (incomplete : ¬ format.isComplete reader.model)
    (same : reader.buffer.SameAhead buffer)
    (judged : format.judge reader.dialect reader.model buffer.offset buffer.unread =
      .decoded marker used model)
    (arrivals : List Arrival) :
    reader.outlook arrivals =
      (.decoded marker buffer.offset :: ((reader.past buffer used model).outlook arrivals).1,
        ((reader.past buffer used model).outlook arrivals).2) := by
  have within := (LogFormat.used_of_judge judged).2
  have left : (reader.past buffer used model).ahead arrivals =
      (reader.ahead arrivals).drop used := by
    rw [ahead_of_sameAhead same, List.drop_append_of_le_length within, ahead, Stream.Buffer.ahead,
      List.append_assoc]
    rfl
  rw [outlook,
    LogFormat.decodeFrom_of_decoded incomplete (judge_ahead same judged (by simp) arrivals),
    ← left, ← same.offset_eq]
  rfl

/-- The answers and the model of a session are what the bytes decode to. -/
theorem outlook_of_session
    {reader : LogReader format}
    {arrivals : List Arrival}
    {answers : List (Except String Status)}
    {model : Model}
    (session : Session reader arrivals answers model)
    (streams : reader.Streams)
    (sound : ∀ arrival ∈ arrivals, ∀ reason, arrival ≠ .failure reason) :
    answers = (reader.outlook arrivals).1.map .ok ∧ model = (reader.outlook arrivals).2 := by
  induction session with
  | arrived rest inductionHypothesis =>
      have first := sound _ List.mem_cons_self
      have others := fun later member => sound later (List.mem_cons_of_mem _ member)
      rw [← outlook_push]
      exact inductionHypothesis (streams.push first) others
  | @decoded reader later arrivals _ _ _ _ answered rest inductionHypothesis =>
      obtain ⟨incomplete, buffer, content, used, next, grows, judged, rfl, rfl⟩ :=
        decoded_of_next streams answered
      obtain ⟨rfl, rfl⟩ := inductionHypothesis (streams.of_decoded grows used next) sound
      rw [outlook_of_decoded incomplete grows.sameAhead judged]
      exact ⟨rfl, rfl⟩
  | pending answered rest inductionHypothesis =>
      obtain ⟨incomplete, buffer, content, grows, judged, _, rfl⟩ :=
        pending_of_next streams answered
      rw [← outlook_of_sameAhead grows.sameAhead]
      exact inductionHypothesis (streams.of_grows grows) sound
  | @stopped reader later arrivals answer answered stops =>
      unfold outlook
      by_cases complete : format.isComplete reader.model
      · rw [LogFormat.decodeFrom_of_complete complete]
        rw [next_of_complete streams complete] at answered
        cases answered
        exact ⟨rfl, rfl⟩
      · obtain ⟨buffer, content, marker, error, next, grows, judged, rfl, rfl⟩ :=
          faulted_of_next streams complete answered stops
        rw [LogFormat.decodeFrom_of_refused complete (judge_ahead grows.sameAhead judged (by simp)
          arrivals), ← grows.offset_eq]
        exact ⟨rfl, rfl⟩
  | @finished reader later answered exhausted =>
      obtain ⟨incomplete, buffer, content, grows, judged, _, rfl⟩ :=
        pending_of_next streams answered
      have all : reader.ahead [] = buffer.unread := by
        rw [ahead_of_sameAhead grows.sameAhead, show buffer.source.content = [] from exhausted]
        simp
      unfold outlook
      rw [all, ← grows.offset_eq, LogFormat.decodeFrom_of_unfinished incomplete judged]
      refine ⟨rfl, ?_⟩
      unfold finish
      rw [withBuffer, streams.phase_eq]
      cases buffer.unread <;> simp [LogFormat.finished, stopAt]

/-- A session with a stream to which nothing is added comes to its end. -/
theorem exists_session_of_streams
    (reader : LogReader format)
    (streams : reader.Streams) :
    ∃ answers model, Session reader [] answers model := by
  by_cases complete : format.isComplete reader.model
  · exact ⟨_, _, .stopped (next_of_complete streams complete) (Or.inl rfl)⟩
  · have answers := answers_next streams complete
    cases answered : reader.next with
    | mk answer later =>
        rw [answered] at answers
        cases answers with
        | @pending buffer content grows judged paused =>
            by_cases exhausted : buffer.source.content = []
            · exact ⟨_, _, .finished answered exhausted⟩
            · have smaller := paused.smaller.resolve_left fun none =>
                exhausted (congrArg contentOf none)
              obtain ⟨answers, model, rest⟩ :=
                exists_session_of_streams (reader.withBuffer buffer) (streams.of_grows grows)
              exact ⟨answers, model, .pending answered rest⟩
        | faulted grows judged =>
            exact ⟨_, _, .stopped answered (Or.inr (Or.inl rfl))⟩
        | @decoded buffer content marker used model grows judged =>
            have smaller := measure_of_next answered
            obtain ⟨answers, model, rest⟩ :=
              exists_session_of_streams (reader.past buffer used model)
                (streams.of_decoded grows used model)
            exact ⟨_, model, .decoded answered rest⟩
termination_by (reader.buffer.source.size, reader.buffer.unread.length)
decreasing_by
  · exact Prod.Lex.left _ _ smaller
  · exact smaller

/-- A session comes to its end, whatever arrives during it. -/
theorem exists_session
    {reader : LogReader format}
    {arrivals : List Arrival}
    (streams : reader.Streams)
    (sound : ∀ arrival ∈ arrivals, ∀ reason, arrival ≠ .failure reason) :
    ∃ answers model, Session reader arrivals answers model := by
  induction arrivals generalizing reader with
  | nil => exact exists_session_of_streams reader streams
  | cons arrival arrivals inductionHypothesis =>
      have first := sound arrival List.mem_cons_self
      have others := fun later member => sound later (List.mem_cons_of_mem _ member)
      obtain ⟨answers, model, rest⟩ := inductionHypothesis (streams.push first) others
      exact ⟨answers, model, .arrived rest⟩

/-- There is one session with a stream, as far as answers and model go: the one
which the bytes decode to. -/
theorem session_iff
    {reader : LogReader format}
    {arrivals : List Arrival}
    {answers : List (Except String Status)}
    {model : Model}
    (streams : reader.Streams)
    (sound : ∀ arrival ∈ arrivals, ∀ reason, arrival ≠ .failure reason) :
    Session reader arrivals answers model ↔
      answers = (reader.outlook arrivals).1.map .ok ∧ model = (reader.outlook arrivals).2 := by
  constructor
  · intro session
    exact outlook_of_session session streams sound
  · rintro ⟨rfl, rfl⟩
    obtain ⟨answers, model, session⟩ := exists_session streams sound
    obtain ⟨rfl, rfl⟩ := outlook_of_session session streams sound
    exact session

end LogReader
end RuntimeLog
