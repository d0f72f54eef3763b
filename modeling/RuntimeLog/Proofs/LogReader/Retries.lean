import RuntimeLog.Proofs.LogReader.History
import RuntimeLog.Proofs.LogReader.Replies
import RuntimeLog.Proofs.LogReader.Steps
import RuntimeLog.Proofs.LogReader.Truncation
import RuntimeLog.Proofs.Stream.Losses
import RuntimeLog.Stream.Zstd.Decoder

/-!
# Retries after failed reads

A request which fails because a read of the stream does changes nothing but the
buffer, and may be made again.  If the failed fill received nothing before it failed,
the answers from then on are those of a stream which does not fail.
-/

namespace RuntimeLog

namespace Stream

/-- Whether an arrival is something else than a failure. -/
def Arrival.isSound : Arrival → Bool
  | .failure _ => false
  | _ => true

/-- Failures bring no bytes. -/
theorem contentOf_filter_isSound (arrivals : List Arrival) :
    contentOf (arrivals.filter Arrival.isSound) = contentOf arrivals := by
  induction arrivals with
  | nil => rfl
  | cons arrival arrivals inductionHypothesis =>
      cases arrival <;>
        simp [List.filter_cons, Arrival.isSound, Arrival.content, inductionHypothesis]

/-- The source which arrives in the same pieces, but without failures. -/
def Source.calm (source : Source) : Source :=
  { source with queue := source.queue.filter Arrival.isSound }

/-- A source without failures brings the same bytes. -/
@[simp] theorem Source.content_calm (source : Source) : source.calm.content = source.content :=
  contentOf_filter_isSound source.queue

/-- A source without failures, whose reads hand out something, is flawless. -/
theorem Source.flawless_calm {source : Source} (limited : source.limit ≠ some 0) :
    source.calm.Flawless where
  limit_ne_zero := limited
  no_failure reason := by simp [calm, Arrival.isSound]

end Stream

namespace LogReader

open RuntimeLog.Stream (Arrival contentOf)

section

variable [Stream.Decompressor]

variable {Marker Record Model : Type} {format : LogFormat Marker Record Model}

/-- A reader which still decodes, in front of an uncompressed stream whose reads hand out
something or fail. -/
structure Listens (reader : LogReader format) : Prop where
  phase_eq : reader.phase = .streaming
  plain : reader.buffer.encoding = .plain
  limit_ne_zero : reader.buffer.source.limit ≠ some 0
  chunk_ne_zero : reader.buffer.chunk ≠ 0

/-- The reader of the same stream without failures. -/
def calm (reader : LogReader format) : LogReader format :=
  reader.withBuffer { reader.buffer with source := reader.buffer.source.calm }

/-- The reader of a stream without failures streams. -/
theorem Listens.streams_calm {reader : LogReader format} (listens : reader.Listens) :
    reader.calm.Streams where
  phase_eq := listens.phase_eq
  uncompressed :=
    { flawless := Stream.Source.flawless_calm listens.limit_ne_zero
      chunk_ne_zero := listens.chunk_ne_zero
      encoding := Or.inl listens.plain }
  plain := listens.plain

/-- A stream without failures decodes to the same. -/
theorem outlook_calm (reader : LogReader format) (arrivals : List Arrival) :
    reader.calm.outlook (arrivals.filter Arrival.isSound) = reader.outlook arrivals := by
  have same : reader.calm.ahead (arrivals.filter Arrival.isSound) = reader.ahead arrivals := by
    simp only [ahead, calm, withBuffer, Stream.Buffer.ahead, Stream.Source.content_calm,
      Stream.contentOf_filter_isSound]
  unfold outlook
  rw [same]
  rfl

/-- A use of a reader as in a session, by somebody who also goes on where a read of the
stream fails, as long as nothing is lost there.  Such answers are left out. -/
inductive Retried :
    LogReader format → List Arrival → List (Except String Status) → Model → Prop
  | arrived
      {reader : LogReader format}
      {arrival : Arrival}
      {arrivals : List Arrival}
      {answers : List (Except String Status)}
      {model : Model}
      (rest : Retried (reader.push arrival) arrivals answers model) :
      Retried reader (arrival :: arrivals) answers model
  | decoded
      {reader later : LogReader format}
      {arrivals : List Arrival}
      {answers : List (Except String Status)}
      {model : Model}
      {marker : UInt8}
      {offset : Nat}
      (answered : reader.next = (.ok (.decoded marker offset), later))
      (rest : Retried later arrivals answers model) :
      Retried reader arrivals (.ok (.decoded marker offset) :: answers) model
  | pending
      {reader later : LogReader format}
      {arrivals : List Arrival}
      {answers : List (Except String Status)}
      {model : Model}
      (answered : reader.next = (.ok .pending, later))
      (rest : Retried later arrivals answers model) :
      Retried reader arrivals answers model
  | failed
      {reader later : LogReader format}
      {arrivals : List Arrival}
      {answers : List (Except String Status)}
      {model : Model}
      {reason : String}
      (answered : reader.next = (.error reason, later))
      (kept : later.buffer.ahead = reader.buffer.ahead)
      (rest : Retried later arrivals answers model) :
      Retried reader arrivals answers model
  | stopped
      {reader later : LogReader format}
      {arrivals : List Arrival}
      {status : Status}
      (answered : reader.next = (.ok status, later))
      (stops : status = .ended ∨ status = .faulted) :
      Retried reader arrivals [.ok status] later.model
  | finished
      {reader later : LogReader format}
      (answered : reader.next = (.ok .pending, later))
      (exhausted : later.buffer.source.content = []) :
      Retried reader [] [] later.finish.model

/-- A reader which still decodes either ends a complete log or replies. -/
theorem replies_of_next
    {reader later : LogReader format}
    {answer : Except String Status}
    (streaming : reader.phase = .streaming)
    (plain : reader.buffer.encoding = .plain)
    (answered : reader.next = (answer, later))
    (other : answer ≠ .ok .ended) :
    ¬ format.isComplete reader.model ∧ reader.Replies (answer, later) := by
  rcases next_cases (by simp [plain]) answered with
    ⟨_, incomplete, replies⟩ | ⟨_, _, ended, _⟩ | ⟨stopped, _⟩
  · exact ⟨incomplete, replies⟩
  · exact absurd ended other
  · exact absurd streaming stopped

/-- A reader which stops has decoded all that it will. -/
theorem outlook_of_stopped
    {reader later : LogReader format}
    {status : Status}
    (streaming : reader.phase = .streaming)
    (plain : reader.buffer.encoding = .plain)
    (answered : reader.next = (.ok status, later))
    (stops : status = .ended ∨ status = .faulted)
    (arrivals : List Arrival) :
    reader.outlook arrivals = ([status], later.model) := by
  unfold outlook
  rcases next_cases (by simp [plain]) answered with
    ⟨_, incomplete, replies⟩ | ⟨_, complete, ended, rfl⟩ | ⟨stopped, _⟩
  · cases replies with
    | pending receives judged => simp at stops
    | decoded receives judged => simp at stops
    | faulted receives judged =>
        have same := receives.sameAhead plain
        rw [LogFormat.decodeFrom_of_refused incomplete
          (judge_ahead same judged (by simp) arrivals), ← receives.offset_eq]
        rfl
  · cases ended
    rw [LogFormat.decodeFrom_of_complete complete]
  · exact absurd streaming stopped

/-- A reader which waits until the end of its stream has decoded all records which are
whole. -/
theorem outlook_of_finished
    {reader later : LogReader format}
    (streaming : reader.phase = .streaming)
    (plain : reader.buffer.encoding = .plain)
    (answered : reader.next = (.ok .pending, later))
    (exhausted : later.buffer.source.content = []) :
    reader.outlook [] = ([], later.finish.model) := by
  obtain ⟨incomplete, replies⟩ := replies_of_next streaming plain answered (by simp)
  cases replies with
  | @pending buffer content receives judged =>
      have same := receives.sameAhead plain
      have all : reader.ahead [] = buffer.unread := by
        rw [ahead_of_sameAhead same, show buffer.source.content = [] from exhausted]
        simp
      unfold outlook
      rw [all, ← receives.offset_eq, LogFormat.decodeFrom_of_unfinished incomplete judged]
      unfold finish
      rw [withBuffer, streaming]
      cases buffer.unread <;> simp [LogFormat.finished, stopAt]

/-- The answers and the model of a use with retries are what the bytes decode to. -/
theorem outlook_of_retried
    {reader : LogReader format}
    {arrivals : List Arrival}
    {answers : List (Except String Status)}
    {model : Model}
    (retried : Retried reader arrivals answers model)
    (streaming : reader.phase = .streaming)
    (plain : reader.buffer.encoding = .plain) :
    answers = (reader.outlook arrivals).1.map .ok ∧ model = (reader.outlook arrivals).2 := by
  induction retried with
  | arrived rest inductionHypothesis =>
      rw [← outlook_push]
      exact inductionHypothesis streaming plain
  | @decoded reader later arrivals answers model marker offset answered rest
      inductionHypothesis =>
      obtain ⟨incomplete, replies⟩ := replies_of_next streaming plain answered (by simp)
      cases replies with
      | @decoded buffer content _ used next receives judged =>
          have same := receives.sameAhead plain
          obtain ⟨rfl, rfl⟩ := inductionHypothesis streaming (receives.plain plain).1
          rw [outlook_of_decoded incomplete same judged]
          exact ⟨rfl, rfl⟩
  | pending answered rest inductionHypothesis =>
      obtain ⟨incomplete, replies⟩ := replies_of_next streaming plain answered (by simp)
      cases replies with
      | pending receives judged =>
          rw [← outlook_of_sameAhead (receives.sameAhead plain)]
          exact inductionHypothesis streaming (receives.plain plain).1
  | failed answered kept rest inductionHypothesis =>
      obtain ⟨incomplete, replies⟩ := replies_of_next streaming plain answered (by simp)
      cases replies with
      | failed receives judged =>
          rw [← outlook_of_sameAhead ⟨kept, receives.offset_eq⟩]
          exact inductionHypothesis streaming (receives.plain plain).1
  | stopped answered stops =>
      rw [outlook_of_stopped streaming plain answered stops]
      exact ⟨rfl, rfl⟩
  | finished answered exhausted =>
      rw [outlook_of_finished streaming plain answered exhausted]
      exact ⟨rfl, rfl⟩

/-- A request which fails changes nothing but the buffer, whose bytes are those of before
but for the lost ones. -/
theorem receives_of_failed_next
    {reader later : LogReader format}
    {reason : String}
    (streaming : reader.phase = .streaming)
    (plain : reader.buffer.encoding = .plain)
    (answered : reader.next = (.error reason, later)) :
    later = reader.withBuffer later.buffer ∧
      ∃ content lost, reader.buffer.Receives content lost later.buffer := by
  obtain ⟨_, replies⟩ := replies_of_next streaming plain answered (by simp)
  cases replies with
  | failed receives judged => exact ⟨rfl, _, _, receives⟩

/-- What becomes of the bytes of an uncompressed stream whose reads may fail.

However a buffer is filled and consumed, the consumed bytes and the unread ones are those
which were handed out for fills that did not fail; they are all bytes which were handed
out if and only if no fill failed behind bytes that it had received.  A stream which does
not start like a compressed one is taken plainly as long as none of its bytes were lost,
and none consumed before the buffer had decided on the encoding.

A request which fails leaves a reader as it was, with the unread bytes and those which
it received behind them, but for the lost ones.  Where nothing is lost, a user who makes
failed requests again gets the answers and the model of the stream without failures. -/
theorem kept_of_failures (format : LogFormat Marker Record Model) :
    (∀ {source : Stream.Source} {chunk : Nat} {fills : List Stream.Fill}
      {consumed : Bytes} {buffer : Stream.Buffer},
      Stream.Buffer.Use source chunk fills consumed buffer →
        consumed ++ buffer.unread = Stream.kept fills ∧
        Stream.handedOut fills ++ buffer.source.content = source.content ∧
        (consumed ++ buffer.unread = Stream.handedOut fills ↔ ∀ fill ∈ fills, fill.Lossless) ∧
        (¬ Stream.Zstd.magic <+: source.content → (∀ fill ∈ fills, fill.Lossless) →
          (buffer.encoding = .undecided → consumed = []) →
            ∀ received, received <+: buffer.source.content → buffer.TakesPlainly received)) ∧
    (∀ {reader later : LogReader format} {reason : String},
      reader.phase = .streaming → reader.buffer.encoding = .plain →
      reader.next = (.error reason, later) →
        later = reader.withBuffer later.buffer ∧
        later.nextOffset = reader.nextOffset ∧
        ∃ content lost,
          later.buffer.unread = reader.buffer.unread ++ content ∧
          reader.buffer.ahead = later.buffer.unread ++ (lost ++ later.buffer.source.content)) ∧
    ∀ {reader : LogReader format} {arrivals : List Arrival}
      {answers : List (Except String Status)} {model : Model},
      reader.Listens → Retried reader arrivals answers model →
        Session reader.calm (arrivals.filter Arrival.isSound) answers model := by
  refine ⟨fun use => ?_, fun streaming plain answered => ?_,
    @fun reader arrivals answers model listens retried => ?_⟩
  · obtain ⟨keptAll, handedAll, _⟩ := use.accounts
    refine ⟨keptAll, handedAll, ?_, fun plain lossless patient received within =>
      use.takesPlainly plain lossless patient within⟩
    rw [keptAll]
    exact Stream.kept_eq_handedOut_iff _
  · obtain ⟨same, content, lost, receives⟩ := receives_of_failed_next streaming plain answered
    exact ⟨same, receives.offset_eq, content, lost, receives.unread_eq, (receives.plain plain).2⟩
  · have sound : ∀ arrival ∈ arrivals.filter Arrival.isSound,
        ∀ reason, arrival ≠ .failure reason := by
      rintro arrival member reason rfl
      simp [Arrival.isSound] at member
    rw [session_iff listens.streams_calm sound, outlook_calm]
    exact outlook_of_retried retried listens.phase_eq listens.plain

end

attribute [local instance] Stream.Zstd.decompressor

/-- A read which fails before any byte of a record arrived loses nothing: the next request
decodes the record.  A fill which fails at once loses nothing either. -/
theorem kept_of_failure_between_records :
    (∃ buffer : Stream.Buffer,
      Stream.Buffer.Use { queue := [.failure "other", .bytes [1, 2]], limit := none } 16
        [⟨.error "other", []⟩, ⟨.ok true, [1, 2]⟩] [1] buffer ∧
      [1] ++ buffer.unread = [1, 2]) ∧
    ∃ reader : LogReader Jitlog.format,
      open? Jitlog.format (.ofBytes (abortedTraces.take 8)) 16 = .ok reader ∧
      reader.Listens ∧
      Retried reader [.failure "other", .bytes ((abortedTraces.drop 8).take 9)]
        [.ok (.decoded 0x1f 8)] abortedForest ∧
      Session reader.calm [.bytes ((abortedTraces.drop 8).take 9)]
        [.ok (.decoded 0x1f 8)] abortedForest := by
  constructor
  · have failed : Stream.Buffer.Use { queue := [.failure "other", .bytes [1, 2]], limit := none } 16
        ([] ++ [⟨.error "other", []⟩]) [] _ :=
      .filled .started (Stream.Buffer.fill_of_failure (by cbv)) rfl (Or.inr ⟨rfl, by decide⟩)
    have filled : Stream.Buffer.Use { queue := [.failure "other", .bytes [1, 2]], limit := none } 16
        ([] ++ [⟨.error "other", []⟩] ++ [⟨.ok true, [1, 2]⟩]) [] _ :=
      .filled failed (Stream.Buffer.fill_of_absorb (by cbv) rfl rfl) rfl
        (Or.inr ⟨rfl, by decide⟩)
    have use := filled.consumed 1 (by decide)
    exact ⟨_, use, ((kept_of_failures Jitlog.format).1 use).1⟩
  · have fits : (abortedTraces.take 8).length ≤ max Stream.Buffer.leastChunk 16 := by decide
    have parsed : Header.parse (abortedTraces.take 8) Jitlog.format.flag =
        .ok (some (abortedHeader, 8)) := rfl
    obtain ⟨markers, supported, first, _⟩ := judge_abortedTraces
    have opened := open_ofBytes_of_fits (by decide) fits parsed supported
    have whole := LogFormat.judge_take first (Nat.le_refl 9)
    have listens : (holding Jitlog.format { header := abortedHeader, markers } 8
        ((abortedTraces.take 8).drop 8) 16).Listens :=
      ⟨rfl, rfl, by simp [holding], Nat.succ_ne_zero 15⟩
    have retried : Retried (holding Jitlog.format { header := abortedHeader, markers } 8
        ((abortedTraces.take 8).drop 8) 16)
        [.failure "other", .bytes ((abortedTraces.drop 8).take 9)]
        [.ok (.decoded 0x1f 8)] abortedForest := by
      refine .arrived (.arrived ?_)
      refine .failed (next_of_unfinished _ rfl Bool.false_ne_true rfl
        (Stream.Buffer.fill_of_failure (by cbv)) (by simp)) (by cbv) ?_
      refine .decoded ((next_eq_decodeOne rfl Bool.false_ne_true).trans
        ((decodeOne_of_fill rfl (Stream.Buffer.fill_of_absorb (by cbv) rfl (by cbv))).trans
          (decodeOne_of_decoded whole))) ?_
      exact .finished (next_of_unfinished _ rfl Bool.false_ne_true rfl
        (Stream.Buffer.fill_of_nothing (by cbv)) (by simp)) rfl
    exact ⟨_, opened, listens, retried, (kept_of_failures Jitlog.format).2.2 listens retried⟩

set_option maxRecDepth 4000 in
/-- A read which fails inside a record loses what arrived of it before.  The next request
takes the rest for a record of its own, and stops at its first byte. -/
theorem exists_lost_of_failure_inside_record :
    (∃ (fills : List Stream.Fill) (buffer : Stream.Buffer),
      Stream.Buffer.Use { queue := [.bytes [1, 2], .failure "other", .bytes [3]], limit := none } 16
        fills [] buffer ∧
      buffer.unread = [] ∧
      Stream.handedOut fills = [1, 2]) ∧
    ∃ reader middle later : LogReader Jitlog.format,
      Reached (.ofBytes (abortedTraces.take 8)) 16 [] reader ∧
      reader.buffer.ahead = (abortedTraces.drop 8).take 9 ∧
      Jitlog.format.judge reader.dialect reader.model reader.nextOffset reader.buffer.ahead =
        .decoded 0x1f 9 abortedForest ∧
      reader.next = (.error "other", middle) ∧
      middle.next = (.ok .faulted, later) ∧
      later.model.fault =
        some { offset := 8, marker := some 0, error := .unknownMarker 0 3 } := by
  constructor
  · have failed : Stream.Buffer.Use
        { queue := [.bytes [1, 2], .failure "other", .bytes [3]], limit := none } 16
        ([] ++ [⟨.error "other", [1, 2]⟩]) [] _ :=
      .filled .started (Stream.Buffer.fill_of_failure (by cbv)) rfl (Or.inr ⟨rfl, by decide⟩)
    exact ⟨_, _, failed, rfl, rfl⟩
  · have fits : (abortedTraces.take 8).length ≤ max Stream.Buffer.leastChunk 16 := by decide
    have parsed : Header.parse (abortedTraces.take 8) Jitlog.format.flag =
        .ok (some (abortedHeader, 8)) := rfl
    obtain ⟨markers, supported, first, _⟩ := judge_abortedTraces
    have unknown : markers.lookup 0 = .error (.unknownMarker 0 3) := by
      have known : (Jitlog.format.markers? abortedHeader.version).map (·.lookup 0) =
          some (.error (.unknownMarker 0 3)) := rfl
      rw [supported] at known
      exact Option.some.inj known
    have opened := open_ofBytes_of_fits (by decide) fits parsed supported
    have reached := (((Reached.opened opened).arrived (.bytes [0x1f, 1, 0, 0])).arrived
      (.failure "other")).arrived (.bytes [0, 0, 0, 0, 0])
    refine ⟨_, _, _, reached, rfl, LogFormat.judge_take first (Nat.le_refl 9),
      next_of_unfinished _ rfl Bool.false_ne_true rfl (Stream.Buffer.fill_of_failure (by cbv))
        (by simp),
      (next_eq_decodeOne rfl Bool.false_ne_true).trans
        ((decodeOne_of_fill rfl (Stream.Buffer.fill_of_absorb (by cbv) rfl (by cbv))).trans
          (decodeOne_of_unknown rfl unknown)), rfl⟩

end LogReader
end RuntimeLog
