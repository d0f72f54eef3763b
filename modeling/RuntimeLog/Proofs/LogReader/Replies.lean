import RuntimeLog.Proofs.LogReader.Opening
import RuntimeLog.Proofs.Stream.Reception

/-!
# Replies of readers

A reader in front of any stream, compressed or not, with or without failures,
replies to a request with the verdict on the bytes which it holds in the end.  A
failed read changes nothing but the buffer.
-/

namespace RuntimeLog
namespace LogReader

variable [Stream.Decompressor]
variable {Marker Record Model : Type} {format : LogFormat Marker Record Model}

/-- The replies of a reader which decodes one record.  Its buffer may have
received more before; beyond that, the reply is the verdict on the unread
bytes. -/
inductive Replies (reader : LogReader format) : Except String Status × LogReader format → Prop
  | failed
      {buffer : Stream.Buffer}
      {content lost : Bytes}
      {reason : String}
      (receives : reader.buffer.Receives content lost buffer)
      (judged : reader.buffer.encoding = .plain →
        format.judge reader.dialect reader.model buffer.offset buffer.unread = .unfinished) :
      Replies reader (.error reason, reader.withBuffer buffer)
  | pending
      {buffer : Stream.Buffer}
      {content : Bytes}
      (receives : reader.buffer.Receives content [] buffer)
      (judged : format.judge reader.dialect reader.model buffer.offset buffer.unread =
        .unfinished) :
      Replies reader (.ok .pending, reader.withBuffer buffer)
  | faulted
      {buffer : Stream.Buffer}
      {content : Bytes}
      {marker : UInt8}
      {error : DecodeError}
      {model : Model}
      (receives : reader.buffer.Receives content [] buffer)
      (judged : format.judge reader.dialect reader.model buffer.offset buffer.unread =
        .refused marker error model) :
      Replies reader (.ok .faulted, { reader with buffer, model }.stopAt marker error)
  | decoded
      {buffer : Stream.Buffer}
      {content : Bytes}
      {marker : UInt8}
      {used : Nat}
      {model : Model}
      (receives : reader.buffer.Receives content [] buffer)
      (judged : format.judge reader.dialect reader.model buffer.offset buffer.unread =
        .decoded marker used model) :
      Replies reader (.ok (.decoded marker buffer.offset), reader.past buffer used model)

/-- A reader which received something first replies as it would have without
that. -/
theorem Replies.of_receives
    {reader : LogReader format}
    {buffer : Stream.Buffer}
    {content : Bytes}
    {reply : Except String Status × LogReader format}
    (receives : reader.buffer.Receives content [] buffer)
    (replies : (reader.withBuffer buffer).Replies reply) :
    reader.Replies reply := by
  cases replies with
  | failed further judged =>
      exact .failed (receives.trans further) fun plain => judged (receives.plain plain).1
  | pending further judged => exact .pending (receives.trans further) judged
  | faulted further judged => exact .faulted (receives.trans further) judged
  | decoded further judged => exact .decoded (receives.trans further) judged

/-- Behind a known marker, a reader replies with the verdict. -/
theorem replies_decodeBehind
    {reader : LogReader format}
    {marker : UInt8}
    {payload : Bytes}
    {meaning : Marker}
    (decided : reader.buffer.encoding ≠ .undecided)
    (unread : reader.buffer.unread = marker :: payload)
    (found : reader.markers.lookup marker = .ok meaning) :
    reader.Replies (reader.decodeBehind marker meaning) := by
  cases answered : reader.buffer.read 1
      (format.payload reader.header reader.model meaning) with
  | mk answer later =>
      obtain ⟨content, lost, receives, ended, failed⟩ :=
        Stream.Buffer.receives_of_readFrom decided (by rw [unread]; simp)
          (.start (format.payload reader.header reader.model meaning) (reader.buffer.offset + 1)
            (reader.buffer.unread.drop 1)) answered
      have judged {outcome : Outcome DecodeError Record}
          (known : (format.payload reader.header reader.model meaning).run
            (reader.buffer.offset + 1) (later.unread.drop 1) = outcome) :
          format.judge reader.dialect reader.model later.offset later.unread =
            format.judgePayload reader.model later.offset marker outcome := by
        rw [receives.unread_eq, unread, List.cons_append, List.drop_one, List.tail_cons] at known
        rw [receives.unread_eq, unread, List.cons_append, LogFormat.judge]
        simp only [dialect, found, receives.offset_eq, known]
      unfold decodeBehind
      rw [answered]
      cases answer with
      | error reason => exact .failed receives fun plain => judged (failed plain reason rfl)
      | ok outcome =>
          obtain ⟨rfl, known⟩ := ended outcome rfl
          have judged := judged known
          cases outcome with
          | incomplete => exact .pending receives judged
          | malformed error used => exact .faulted receives judged
          | complete record used =>
              simp only [LogFormat.judgePayload] at judged ⊢
              cases applied : (format.apply (later.offset + 1) record).run reader.model with
              | error error model =>
                  rw [applied] at judged
                  exact .faulted receives judged
              | ok value model =>
                  rw [applied] at judged
                  exact .decoded receives judged

/-- A reader replies with the verdict on the unread bytes. -/
theorem replies_decodeOne
    {reader : LogReader format}
    (decided : reader.buffer.encoding ≠ .undecided) :
    reader.Replies reader.decodeOne := by
  fun_induction decodeOne reader with
  | case1 reader marker payload unread error found =>
      refine .faulted (.refl decided) ?_
      rw [unread, LogFormat.judge]
      simp only [dialect, found]
  | case2 reader marker payload unread meaning found =>
      exact replies_decodeBehind decided unread found
  | case3 reader unread reason buffer filled =>
      obtain ⟨content, lost, receives, _, none⟩ := Stream.Buffer.receives_of_fill decided filled
      refine .failed receives fun plain => ?_
      rw [receives.unread_eq, unread, none plain reason rfl]
      rfl
  | case4 reader unread buffer filled =>
      obtain ⟨content, lost, receives, whether, _⟩ := Stream.Buffer.receives_of_fill decided filled
      obtain ⟨rfl, empty⟩ := whether false rfl
      refine .pending receives ?_
      rw [receives.unread_eq, unread, show content = [] by simpa using empty.symm]
      rfl
  | case5 reader unread buffer filled inductionHypothesis =>
      obtain ⟨content, lost, receives, whether, _⟩ := Stream.Buffer.receives_of_fill decided filled
      obtain ⟨rfl, _⟩ := whether true rfl
      exact .of_receives receives (inductionHypothesis receives.decided)

/-- A reader replies to a request, unless the log is complete or decoding has ended
before: then no more of the reader changes than its phase. -/
theorem next_cases
    {reader later : LogReader format}
    {answer : Except String Status}
    (decided : reader.buffer.encoding ≠ .undecided)
    (answered : reader.next = (answer, later)) :
    reader.phase = .streaming ∧ ¬ format.isComplete reader.model ∧
        reader.Replies (answer, later) ∨
      reader.phase = .streaming ∧ format.isComplete reader.model ∧
        answer = .ok .ended ∧ later = { reader with phase := .done } ∨
      reader.phase ≠ .streaming ∧ later = reader ∧
        ∃ status, answer = .ok status ∧ status ≠ .pending := by
  unfold next at answered
  cases phase : reader.phase with
  | done =>
      rw [phase] at answered
      cases answered
      exact Or.inr (Or.inr ⟨by simp, rfl, .ended, rfl, by simp⟩)
  | faulted =>
      rw [phase] at answered
      cases answered
      exact Or.inr (Or.inr ⟨by simp, rfl, .faulted, rfl, by simp⟩)
  | streaming =>
      rw [phase] at answered
      by_cases complete : format.isComplete reader.model
      · simp only [if_pos complete] at answered
        cases answered
        exact Or.inr (Or.inl ⟨rfl, complete, rfl, rfl⟩)
      · simp only [if_neg complete] at answered
        exact Or.inl ⟨rfl, complete, answered ▸ replies_decodeOne decided⟩

/-- The buffer behind a reply has decided on the encoding. -/
theorem Replies.decided
    {reader later : LogReader format}
    {answer : Except String Status}
    (replies : reader.Replies (answer, later)) :
    later.buffer.encoding ≠ .undecided := by
  cases replies with
  | failed receives judged => exact receives.decided
  | pending receives judged => exact receives.decided
  | faulted receives judged => exact receives.decided
  | decoded receives judged => exact receives.decided

/-- A request leaves a buffer which has decided on the encoding. -/
theorem decided_of_next
    {reader later : LogReader format}
    {answer : Except String Status}
    (decided : reader.buffer.encoding ≠ .undecided)
    (answered : reader.next = (answer, later)) :
    later.buffer.encoding ≠ .undecided := by
  rcases next_cases decided answered with ⟨_, _, replies⟩ | ⟨_, _, _, rfl⟩ | ⟨_, rfl, _⟩
  · exact replies.decided
  · exact decided
  · exact decided

/-- A reader is opened by a header, which is long enough to decide on the
encoding. -/
theorem decided_of_openBuffer
    {buffer : Stream.Buffer}
    {reader : LogReader format}
    (deciding : buffer.Deciding)
    (answered : openBuffer format buffer = .ok reader) :
    reader.buffer.encoding ≠ .undecided := by
  fun_induction openBuffer format buffer with
  | case2 buffer header size parsed markers supported =>
      cases answered
      intro undecided
      have short : buffer.unread.length < 4 := deciding undecided
      have long := Header.le_length_of_parse parsed
      omega
  | case5 buffer parsed later filled inductionHypothesis =>
      exact inductionHypothesis (deciding.fill filled) answered
  | case1 => cases answered
  | case3 => cases answered
  | case4 => cases answered
  | case6 => cases answered
  | case7 => cases answered
  | case8 => cases answered

/-- An opened reader has decided on the encoding. -/
theorem decided_of_open
    {source : Stream.Source}
    {chunk : Nat}
    {reader : LogReader format}
    (answered : open? format source chunk = .ok reader) :
    reader.buffer.encoding ≠ .undecided :=
  decided_of_openBuffer (Stream.Buffer.deciding_start source chunk) answered

end LogReader
end RuntimeLog
