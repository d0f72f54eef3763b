import RuntimeLog.Proofs.Jitlog.Causes
import RuntimeLog.Proofs.LogReader.History
import RuntimeLog.Proofs.LogReader.Replies
import RuntimeLog.Proofs.LogReader.Steps
import RuntimeLog.Proofs.LogReader.Truncation
import RuntimeLog.Stream.Zstd.Decoder

/-!
# The end of a stream

A log is told to be truncated by nothing but the declaration that no more of its
stream will arrive, and then at the first byte which was not consumed.  It does
end inside a record there if the reader was asked for one just before, and had to
wait for the rest.
-/

namespace RuntimeLog

namespace LogFormat

variable {Marker Record Model : Type} {format : LogFormat Marker Record Model}

/-- A format none of whose records is refused for being truncated, and in which a
fault does not complete a log. -/
structure Candid (format : LogFormat Marker Record Model) : Prop where
  payload : ∀ header model marker, (format.payload header model marker).Avoids .truncated
  apply : ∀ offset record, (format.apply offset record).Avoids .truncated
  isComplete_stop : ∀ model fault,
    format.isComplete (format.stop model fault) = format.isComplete model

/-- A record is not refused for being truncated. -/
theorem Candid.error_ne_of_refused
    (candid : format.Candid)
    {dialect : Dialect Marker}
    {model left : Model}
    {offset : Nat}
    {bytes : Bytes}
    {marker : UInt8}
    {error : DecodeError}
    (judged : format.judge dialect model offset bytes = .refused marker error left) :
    error ≠ .truncated := by
  cases bytes with
  | nil => cases judged
  | cons first behind =>
      rw [judge] at judged
      split at judged
      · rename_i unknown
        cases judged
        unfold MarkerTable.lookup at unknown
        split at unknown
        · cases unknown
        · cases unknown
          simp
      · unfold judgePayload at judged
        split at judged
        · cases judged
        · rename_i malformed
          cases judged
          rintro rfl
          exact (candid.payload _ _ _).run_ne _ _ _ malformed
        · split at judged
          · rename_i failed
            cases judged
            rintro rfl
            exact candid.apply _ _ _ _ failed
          · cases judged

end LogFormat

namespace LogReader

variable [Stream.Decompressor]
variable {Marker Record Model : Type} {format : LogFormat Marker Record Model}
variable {source : Stream.Source} {chunk : Nat} {history : List Record}
variable {reader later : LogReader format} {answer : Except String Status}

/-! ## What requests do to the fault -/

/-- A request leaves a reader as it is, leaves it without a fault, or finds a fault
in a record of a log which is not complete. -/
theorem fault_of_next
    (ledger : format.Ledger)
    (candid : format.Candid)
    (decided : reader.buffer.encoding ≠ .undecided)
    (sound : reader.phase ≠ .faulted → ledger.fault? reader.model = none)
    (answered : reader.next = (answer, later)) :
    later = reader ∨
      later.phase ≠ .faulted ∧ ledger.fault? later.model = none ∨
      later.phase = .faulted ∧ ∃ fault, fault.error ≠ .truncated ∧
        ¬ format.isComplete later.model ∧ ledger.fault? later.model = some fault := by
  rcases next_cases decided answered with
    ⟨streaming, incomplete, replies⟩ | ⟨streaming, _, _, rfl⟩ | ⟨_, rfl, _⟩
  · have soundHere : ledger.fault? reader.model = none := sound (by simp [streaming])
    have unfaulted : reader.phase ≠ .faulted := by simp [streaming]
    cases replies with
    | failed receives judged => exact Or.inr (Or.inl ⟨unfaulted, soundHere⟩)
    | pending receives judged => exact Or.inr (Or.inl ⟨unfaulted, soundHere⟩)
    | @faulted buffer content marker error model receives judged =>
        obtain rfl := ledger.eq_of_refused judged
        refine Or.inr (Or.inr ⟨rfl, { offset := buffer.offset, marker := some marker, error },
          candid.error_ne_of_refused judged, ?_, ledger.fault_stop _ _⟩)
        change ¬ format.isComplete (format.stop reader.model _)
        rwa [candid.isComplete_stop]
    | decoded receives judged =>
        obtain ⟨record, applied, made, rfl⟩ := LogFormat.applied_of_judge judged
        refine Or.inr (Or.inl ⟨unfaulted, ?_⟩)
        change ledger.fault? (format.advance applied _) = none
        rw [ledger.fault_advance, ledger.fault_of_ok made, soundHere]
  · exact Or.inr (Or.inl ⟨by simp, sound (by simp [streaming])⟩)
  · exact Or.inl rfl

/-- A reader which still decodes and is told that nothing more will arrive, while it
holds unread bytes, and its state from then on. -/
structure CutShort (before : LogReader format) (marker : UInt8) (rest : Bytes)
    (reader : LogReader format) : Prop where
  streaming : before.phase = .streaming
  unread : before.buffer.unread = marker :: rest
  phase_eq : reader.phase = .faulted
  model_eq : reader.model = before.finish.model
  unread_eq : reader.buffer.unread = before.buffer.unread
  offset_eq : reader.nextOffset = before.nextOffset
  dialect_eq : reader.dialect = before.dialect

/-- To be told that nothing more will arrive leaves a reader as it is, ends decoding
without a fault, or cuts a record short. -/
theorem finish_cases (reader : LogReader format) :
    reader.finish = reader ∨
      reader.phase = .streaming ∧ reader.buffer.unread = [] ∧
        reader.finish = { reader with phase := .done } ∨
      ∃ marker rest, CutShort reader marker rest reader.finish ∧
        reader.finish = reader.stopAt marker .truncated := by
  cases phase : reader.phase with
  | done => exact Or.inl (by simp [finish, phase])
  | faulted => exact Or.inl (by simp [finish, phase])
  | streaming =>
      cases unread : reader.buffer.unread with
      | nil => exact Or.inr (Or.inl ⟨rfl, rfl, by simp [finish, phase, unread]⟩)
      | cons marker rest =>
          have same : reader.finish = reader.stopAt marker .truncated := by
            simp [finish, phase, unread]
          refine Or.inr (Or.inr ⟨marker, rest, ⟨phase, unread, ?_, rfl, ?_, ?_, ?_⟩, same⟩)
          all_goals
            rw [same]
            rfl

/-! ## Where truncation comes from -/

/-- A fault by which a reader is truncated: it was cut short in some state, at the
first byte which it had not consumed. -/
def TellsCut (source : Stream.Source) (chunk : Nat) (reader : LogReader format)
    (fault : Fault) : Prop :=
  ∃ past before marker rest,
    Reached source chunk past before ∧
    CutShort before marker rest reader ∧
    fault = { offset := before.nextOffset, marker := some marker, error := .truncated }

/-- What holds of a reader in every state: its buffer has decided on the encoding, it
has a fault only where one ended decoding, and it is truncated only where it was cut
short. -/
structure Accounts (ledger : format.Ledger) (source : Stream.Source) (chunk : Nat)
    (reader : LogReader format) : Prop where
  decided : reader.buffer.encoding ≠ .undecided
  sound : reader.phase ≠ .faulted → ledger.fault? reader.model = none
  truncated : ∀ fault, ledger.fault? reader.model = some fault → fault.error = .truncated →
    TellsCut source chunk reader fault

/-- A request keeps the account. -/
theorem Accounts.next
    {ledger : format.Ledger}
    (candid : format.Candid)
    (accounts : Accounts ledger source chunk reader)
    (answered : reader.next = (answer, later)) :
    Accounts ledger source chunk later := by
  have decided := decided_of_next accounts.decided answered
  rcases fault_of_next ledger candid accounts.decided accounts.sound answered with
    rfl | ⟨unfaulted, none⟩ | ⟨faulted, fault, other, incomplete, some⟩
  · exact accounts
  · exact ⟨decided, fun _ => none, fun fault found => by simp [none] at found⟩
  · refine ⟨decided, fun unfaulted => absurd faulted unfaulted, fun found same truncated => ?_⟩
    rw [some] at same
    cases same
    exact absurd truncated other

/-- To be told that nothing more will arrive keeps the account. -/
theorem Accounts.finish
    {ledger : format.Ledger}
    (reached : Reached source chunk history reader)
    (accounts : Accounts ledger source chunk reader) :
    Accounts ledger source chunk reader.finish := by
  rcases finish_cases reader with same | ⟨streaming, nothing, same⟩ | ⟨marker, rest, cut, same⟩
  · rwa [same]
  · have none : ledger.fault? reader.model = none := accounts.sound (by simp [streaming])
    rw [same]
    exact ⟨accounts.decided, fun _ => none, fun fault found => by simp [none] at found⟩
  · refine ⟨?_, fun unfaulted => absurd cut.phase_eq unfaulted, fun fault found truncated => ?_⟩
    · rw [same]
      exact accounts.decided
    · rw [same] at found
      have told := (ledger.fault_stop _ _).symm.trans found
      cases told
      exact ⟨_, reader, marker, rest, reached, cut, rfl⟩

/-- The account holds in every state of a reader. -/
theorem accounts_of_reached
    (ledger : format.Ledger)
    (candid : format.Candid)
    (reached : Reached source chunk history reader) :
    Accounts ledger source chunk reader := by
  induction reached with
  | opened answered =>
      obtain ⟨header, same⟩ := model_of_openBuffer answered
      have none := same ▸ ledger.fault_start header
      exact ⟨decided_of_open answered, fun _ => none, fun fault found => by simp [none] at found⟩
  | arrived before arrival inductionHypothesis =>
      refine ⟨inductionHypothesis.decided, inductionHypothesis.sound, fun fault found same => ?_⟩
      obtain ⟨past, earlier, marker, rest, reached, cut, told⟩ :=
        inductionHypothesis.truncated fault found same
      exact ⟨past, earlier, marker, rest, reached,
        ⟨cut.streaming, cut.unread, cut.phase_eq, cut.model_eq, cut.unread_eq, cut.offset_eq,
          cut.dialect_eq⟩, told⟩
  | decoded before answered taken inductionHypothesis =>
      exact inductionHypothesis.next candid answered
  | answered before answered other inductionHypothesis =>
      exact inductionHypothesis.next candid answered
  | finished before inductionHypothesis => exact inductionHypothesis.finish before

/-! ## Orderly use -/

/-- The states of a reader whose user declares the end of the stream only where that
makes no difference, or right behind a request which could not be answered for lack of
bytes: the record was still pending, or a read for it failed on an uncompressed
stream. -/
inductive Orderly (source : Stream.Source) (chunk : Nat) : LogReader format → Prop
  | opened
      {reader : LogReader format}
      (answered : open? format source chunk = .ok reader) :
      Orderly source chunk reader
  | arrived
      {reader : LogReader format}
      (before : Orderly source chunk reader)
      (arrival : Stream.Arrival) :
      Orderly source chunk (reader.push arrival)
  | asked
      {reader later : LogReader format}
      {answer : Except String Status}
      (before : Orderly source chunk reader)
      (answered : reader.next = (answer, later)) :
      Orderly source chunk later
  | idle
      {reader : LogReader format}
      (before : Orderly source chunk reader)
      (idle : reader.phase ≠ .streaming ∨ reader.buffer.unread = []) :
      Orderly source chunk reader.finish
  | waited
      {reader later : LogReader format}
      {answer : Except String Status}
      (before : Orderly source chunk reader)
      (answered : reader.next = (answer, later))
      (waits : answer = .ok .pending ∨
        reader.buffer.encoding = .plain ∧ ∃ reason, answer = .error reason) :
      Orderly source chunk later.finish

/-- A state of orderly use is a state. -/
theorem Orderly.reached (orderly : Orderly source chunk reader) :
    ∃ history, Reached source chunk history reader := by
  induction orderly with
  | opened answered => exact ⟨[], .opened answered⟩
  | arrived before arrival inductionHypothesis =>
      obtain ⟨history, reached⟩ := inductionHypothesis
      exact ⟨history, reached.arrived arrival⟩
  | @asked reader later answer before answered inductionHypothesis =>
      obtain ⟨history, reached⟩ := inductionHypothesis
      obtain ⟨records, next, _⟩ := reached.next
      rw [answered] at next
      exact ⟨_, next⟩
  | idle before idle inductionHypothesis =>
      obtain ⟨history, reached⟩ := inductionHypothesis
      exact ⟨history, reached.finished⟩
  | @waited reader later answer before answered waits inductionHypothesis =>
      obtain ⟨history, reached⟩ := inductionHypothesis
      obtain ⟨records, next, _⟩ := reached.next
      rw [answered] at next
      exact ⟨_, next.finished⟩

/-- A reader which waits for the rest of a record holds no whole one, and its log is not
complete. -/
theorem unfinished_of_next
    (decided : reader.buffer.encoding ≠ .undecided)
    (answered : reader.next = (answer, later))
    (waits : answer = .ok .pending ∨
      reader.buffer.encoding = .plain ∧ ∃ reason, answer = .error reason) :
    ¬ format.isComplete later.model ∧
      format.judge later.dialect later.model later.nextOffset later.buffer.unread =
        .unfinished := by
  rcases next_cases decided answered with
    ⟨_, incomplete, replies⟩ | ⟨_, _, rfl, _⟩ | ⟨_, _, status, rfl, other⟩
  · cases replies with
    | failed receives judged =>
        rcases waits with same | ⟨plain, _⟩
        · cases same
        · exact ⟨incomplete, judged plain⟩
    | pending receives judged => exact ⟨incomplete, judged⟩
    | faulted receives judged => simp at waits
    | decoded receives judged => simp at waits
  · simp at waits
  · simp [other] at waits

/-- What holds of a reader in orderly use: a log with a fault is not complete, and one
which is truncated ends inside a record. -/
structure Honest (ledger : format.Ledger) (reader : LogReader format) : Prop where
  incomplete : ∀ fault, ledger.fault? reader.model = some fault → ¬ format.isComplete reader.model
  unfinished : ∀ fault, ledger.fault? reader.model = some fault → fault.error = .truncated →
    format.judge reader.dialect (ledger.healed reader.model) reader.nextOffset
      reader.buffer.unread = .unfinished

/-- A request keeps a reader honest. -/
theorem Honest.next
    {ledger : format.Ledger}
    (candid : format.Candid)
    (accounts : Accounts ledger source chunk reader)
    (honest : Honest ledger reader)
    (answered : reader.next = (answer, later)) :
    Honest ledger later := by
  rcases fault_of_next ledger candid accounts.decided accounts.sound answered with
    rfl | ⟨_, none⟩ | ⟨_, fault, other, incomplete, some⟩
  · exact honest
  · exact ⟨fun fault found => by simp [none] at found, fun fault found => by simp [none] at found⟩
  · refine ⟨fun _ _ => incomplete, fun found same truncated => ?_⟩
    rw [some] at same
    cases same
    exact absurd truncated other

/-- To be told that nothing more will arrive keeps a reader honest which holds no whole
record of a log that goes on. -/
theorem Honest.finish
    {ledger : format.Ledger}
    (candid : format.Candid)
    (accounts : Accounts ledger source chunk reader)
    (honest : Honest ledger reader)
    (unfinished : reader.phase = .streaming → reader.buffer.unread ≠ [] →
      ¬ format.isComplete reader.model ∧
        format.judge reader.dialect reader.model reader.nextOffset reader.buffer.unread =
          .unfinished) :
    Honest ledger reader.finish := by
  rcases finish_cases reader with same | ⟨_, _, same⟩ | ⟨marker, rest, cut, same⟩
  · rwa [same]
  · rw [same]
    exact ⟨honest.incomplete, honest.unfinished⟩
  · obtain ⟨incomplete, judged⟩ := unfinished cut.streaming (by rw [cut.unread]; simp)
    have none : ledger.fault? reader.model = none := accounts.sound (by simp [cut.streaming])
    rw [same]
    refine ⟨fun _ _ => ?_, fun _ _ _ => ?_⟩
    · change ¬ format.isComplete (format.stop reader.model _)
      rwa [candid.isComplete_stop]
    · change format.judge reader.dialect (ledger.healed (format.stop reader.model _)) _ _ = _
      rw [ledger.healed_stop _ _ none]
      exact judged

/-- In orderly use a reader is honest. -/
theorem honest_of_orderly
    (ledger : format.Ledger)
    (candid : format.Candid)
    (orderly : Orderly source chunk reader) :
    Honest ledger reader := by
  induction orderly with
  | opened answered =>
      obtain ⟨header, same⟩ := model_of_openBuffer answered
      have none := same ▸ ledger.fault_start header
      exact ⟨fun fault found => by simp [none] at found, fun fault found => by simp [none] at found⟩
  | arrived before arrival inductionHypothesis =>
      exact ⟨inductionHypothesis.incomplete, inductionHypothesis.unfinished⟩
  | asked before answered inductionHypothesis =>
      obtain ⟨history, reached⟩ := before.reached
      exact inductionHypothesis.next candid (accounts_of_reached ledger candid reached) answered
  | idle before idle inductionHypothesis =>
      obtain ⟨history, reached⟩ := before.reached
      refine inductionHypothesis.finish candid (accounts_of_reached ledger candid reached) ?_
      intro streaming some
      exact (idle.elim (fun ended => ended streaming) fun nothing => some nothing).elim
  | waited before answered waits inductionHypothesis =>
      obtain ⟨history, reached⟩ := before.reached
      have accounts := accounts_of_reached ledger candid reached
      refine (inductionHypothesis.next candid accounts answered).finish candid
        (accounts.next candid answered) fun _ _ => ?_
      exact unfinished_of_next accounts.decided answered waits

/-! ## The two formats -/

/-- How the readers of a stream tell that a log is truncated.  Only the declaration that
nothing more will arrive tells it, of a reader which still decodes and holds unread
bytes, and at the first of them.  In orderly use the log is not complete then, and all
bytes which were received from there on end inside a record; a complete log gets no
fault. -/
structure TellsTruncation
    (ledger : format.Ledger)
    (source : Stream.Source)
    (chunk : Nat) : Prop where
  cut : ∀ {history} {reader : LogReader format}, Reached source chunk history reader →
    ∀ fault, ledger.fault? reader.model = some fault → fault.error = .truncated →
      TellsCut source chunk reader fault
  unfinished : ∀ {reader : LogReader format}, Orderly source chunk reader →
    ∀ fault, ledger.fault? reader.model = some fault → fault.error = .truncated →
      fault.offset = reader.nextOffset ∧
      ¬ format.isComplete reader.model ∧
      format.judge reader.dialect (ledger.healed reader.model) reader.nextOffset
        reader.buffer.unread = .unfinished
  sound : ∀ {reader : LogReader format}, Orderly source chunk reader →
    format.isComplete reader.model → ledger.fault? reader.model = none

/-- The readers of a format which refuses no record for being truncated tell truncation
only where it is. -/
theorem tellsTruncation_of_candid
    (ledger : format.Ledger)
    (candid : format.Candid)
    (source : Stream.Source)
    (chunk : Nat) :
    TellsTruncation ledger source chunk where
  cut reached fault found truncated :=
    (accounts_of_reached ledger candid reached).truncated fault found truncated
  unfinished orderly fault found truncated := by
    obtain ⟨history, reached⟩ := orderly.reached
    have honest := honest_of_orderly ledger candid orderly
    obtain ⟨_, before, marker, rest, _, cut, told⟩ :=
      (accounts_of_reached ledger candid reached).truncated fault found truncated
    refine ⟨?_, honest.incomplete fault found, honest.unfinished fault found truncated⟩
    rw [told, cut.offset_eq]
  sound orderly complete := by
    refine Option.eq_none_iff_forall_not_mem.mpr fun fault found => ?_
    exact (honest_of_orderly ledger candid orderly).incomplete fault found complete

end LogReader

/-- No record of a trace log is refused for being truncated. -/
theorem Jitlog.candid : Jitlog.format.Candid where
  payload _ _ _ := Record.avoids_reading _ _ _ _
  apply := avoids_apply
  isComplete_stop _ _ := rfl

namespace Profile
namespace Record

/-- No entry of a stack is malformed for being truncated. -/
theorem avoids_entryReading (words : WordSize) : (entryReading words).Avoids .truncated := by
  refine (Reading.avoids_address words).bind fun kind => ?_
  refine (Reading.avoids_address words).bind fun address => ?_
  split
  · trivial
  · simp [Reading.Avoids]

/-- No stack is malformed for being truncated. -/
theorem avoids_stackTraceReading (words : WordSize) (version : UInt16) :
    (stackTraceReading words version).Avoids .truncated := by
  refine (Reading.avoids_address words).bind fun count => ?_
  refine (Reading.avoids_address words).bind fun depth => ?_
  split
  · simp [Reading.Avoids]
  · refine ((avoids_entryReading words).repeated _).bind fun entries => ?_
    refine (Reading.avoids_address words).bind fun thread => ?_
    split
    · exact (Reading.avoids_address words).bind fun _ => trivial
    · trivial

/-- No payload of a record is malformed for being truncated. -/
theorem avoids_reading (words : WordSize) (version : UInt16) (marker : Marker) :
    (reading words version marker).Avoids .truncated := by
  have text : Reading.Avoids DecodeError.truncated (Reading.text .invalidUtf8) :=
    Reading.avoids_text fun _ => by simp [DecodeError.invalidUtf8]
  have address : Reading.Avoids DecodeError.truncated (Reading.address words) :=
    Reading.avoids_address words
  cases marker with
  | stackTrace => exact avoids_stackTraceReading words version
  | virtualName => exact address.bind fun _ => text.bind fun _ => trivial
  | trailer => trivial
  | metadata => exact text.bind fun _ => text.bind fun _ => trivial
  | nativeName => exact address.bind fun _ => text.bind fun _ => trivial
  | startTime =>
      exact Reading.avoids_u64.bind fun _ => Reading.avoids_u64.bind fun _ =>
        (Reading.avoids_bytes zoneWidth).bind fun _ => trivial

end Record

/-- No record of a profile is refused for being truncated. -/
theorem candid : format.Candid where
  payload _ _ _ := Record.avoids_reading _ _ _
  apply _ _ := Update.avoids_modify _
  isComplete_stop _ _ := rfl

end Profile

namespace LogReader

/-- Readers of either format tell that a stream is truncated only when they are told that
nothing more will arrive, and at the first byte which they did not consume.  If they
had to wait for the rest of a record just before, then the log is not complete and what
they hold ends inside that record. -/
theorem tellsTruncation [Stream.Decompressor] (source : Stream.Source) (chunk : Nat) :
    TellsTruncation Jitlog.ledger source chunk ∧ TellsTruncation Profile.ledger source chunk :=
  ⟨tellsTruncation_of_candid Jitlog.ledger Jitlog.candid source chunk,
    tellsTruncation_of_candid Profile.ledger Profile.candid source chunk⟩

attribute [local instance] Stream.Zstd.decompressor

set_option maxRecDepth 4000 in
/-- A trace log which ends inside its second record is truncated there, and a profile
which is asked for a record behind its trailer has no fault. -/
theorem tellsTruncation_of_ended_logs :
    (∃ (reader : LogReader Jitlog.format) (fault : Fault),
      Orderly (.ofBytes (abortedTraces.take 21)) 32 reader ∧
      Jitlog.ledger.fault? reader.model = some fault ∧
      fault.error = .truncated ∧
      fault.offset = 17 ∧
      TellsCut (.ofBytes (abortedTraces.take 21)) 32 reader fault ∧
      Jitlog.format.judge reader.dialect (Jitlog.ledger.healed reader.model) reader.nextOffset
        reader.buffer.unread = .unfinished) ∧
    ∃ reader : LogReader Profile.format,
      Orderly (.ofBytes closedProfile) 16 reader ∧
      reader.buffer.unread = [0xee, 0xee] ∧
      reader.phase = .done ∧
      Profile.ledger.fault? reader.model = none := by
  constructor
  · have fits : (abortedTraces.take 21).length ≤ max Stream.Buffer.leastChunk 32 := by decide
    have parsed : Header.parse (abortedTraces.take 21) Jitlog.format.flag =
        .ok (some (abortedHeader, 8)) := rfl
    obtain ⟨markers, supported, first, second⟩ := judge_abortedTraces
    have opened := open_ofBytes_of_fits (by decide) fits parsed supported
    have whole := LogFormat.judge_take first (show 9 ≤ 13 by decide)
    have cut := LogFormat.judge_of_cut second (show 4 < 9 by decide)
    have orderly := Orderly.waited
      (.asked (.opened opened) (next_of_decoded _ rfl Bool.false_ne_true whole))
      (next_of_unfinished _ rfl Bool.false_ne_true cut
        (Stream.Buffer.fill_of_nothing (by cbv)) (by simp))
      (Or.inl rfl)
    obtain ⟨history, reached⟩ := orderly.reached
    have told := (tellsTruncation _ _).1.cut reached _ rfl rfl
    obtain ⟨place, _, judged⟩ := (tellsTruncation _ _).1.unfinished orderly _ rfl rfl
    exact ⟨_, _, orderly, rfl, rfl, place, told, judged⟩
  · have fits : closedProfile.length ≤ max Stream.Buffer.leastChunk 16 := by decide
    have parsed : Header.parse closedProfile Profile.format.flag =
        .ok (some (closedHeader, 8)) := rfl
    obtain ⟨markers, supported, closed⟩ := judge_closedProfile
    have opened := open_ofBytes_of_fits (by decide) fits parsed supported
    have decoded := Orderly.asked (.opened opened)
      (next_of_decoded _ rfl Bool.false_ne_true closed)
    have finished := Orderly.idle (.asked decoded rfl) (Or.inl (by simp))
    exact ⟨_, finished, rfl, rfl, (tellsTruncation _ _).2.sound finished rfl⟩

set_option maxRecDepth 4000 in
/-- A user who declares the end of the stream without asking for the rest of it is told
a truncation which is none: of a profile whose trailer was decoded, and of a trace log
the rest of which is a whole record. -/
theorem exists_truncated_of_whole :
    (∃ (history : List Profile.Record) (reader : LogReader Profile.format) (fault : Fault),
      Reached (.ofBytes closedProfile) 16 history reader ∧
      Profile.format.isComplete reader.model ∧
      Profile.ledger.fault? reader.model = some fault ∧
      fault.error = .truncated) ∧
    ∃ (history : List Jitlog.Record) (reader : LogReader Jitlog.format) (fault : Fault),
      Reached (.ofBytes abortedTraces) 32 history reader ∧
      Jitlog.ledger.fault? reader.model = some fault ∧
      fault.error = .truncated ∧
      fault.offset = 17 ∧
      Jitlog.format.judge reader.dialect (Jitlog.ledger.healed reader.model) 17
        (abortedTraces.drop 17) = .decoded 0x1f 9 bothAbortedForest := by
  constructor
  · have fits : closedProfile.length ≤ max Stream.Buffer.leastChunk 16 := by decide
    have parsed : Header.parse closedProfile Profile.format.flag =
        .ok (some (closedHeader, 8)) := rfl
    obtain ⟨markers, supported, closed⟩ := judge_closedProfile
    have opened := open_ofBytes_of_fits (by decide) fits parsed supported
    obtain ⟨records, reached, _⟩ := (Reached.opened opened).next
    rw [next_of_decoded _ rfl Bool.false_ne_true closed] at reached
    exact ⟨_, _, _, reached.finished, rfl, rfl, rfl⟩
  · have fits : abortedTraces.length ≤ max Stream.Buffer.leastChunk 32 := by decide
    have parsed : Header.parse abortedTraces Jitlog.format.flag =
        .ok (some (abortedHeader, 8)) := rfl
    obtain ⟨markers, supported, first, second⟩ := judge_abortedTraces
    have opened := open_ofBytes_of_fits (by decide) fits parsed supported
    obtain ⟨records, reached, _⟩ := (Reached.opened opened).next
    rw [next_of_decoded _ rfl Bool.false_ne_true first] at reached
    exact ⟨_, _, _, reached.finished, rfl, rfl, rfl, second⟩

end LogReader
end RuntimeLog
