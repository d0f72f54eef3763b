import RuntimeLog.Jitlog.Format
import RuntimeLog.Profile.Format
import RuntimeLog.Proofs.LogReader.Session
import RuntimeLog.Stream.Zstd.Decoder

/-!
# Schedules of arrival

How the bytes of a log become available is of no consequence: a reader gives the
same answers and ends with the same model as one which finds all bytes at once.
-/

namespace RuntimeLog
namespace LogReader

open RuntimeLog.Stream (Arrival Source contentOf unpaused)

section

variable [Stream.Decompressor]

variable {Marker Record Model : Type} {format : LogFormat Marker Record Model}

/-- A record of which some bytes are still to arrive changes nothing but the
buffer. -/
theorem withBuffer_of_decodeBehind_pending
    {reader later : LogReader format}
    {marker : UInt8}
    {meaning : Marker}
    (answered : reader.decodeBehind marker meaning = (.ok .pending, later)) :
    later = reader.withBuffer later.buffer := by
  unfold decodeBehind at answered
  split at answered
  · cases answered
  · cases answered
    rfl
  · cases answered
  · split at answered <;> cases answered

/-- Neither does one whose marker is still to arrive. -/
theorem withBuffer_of_decodeOne_pending
    {reader later : LogReader format}
    (answered : reader.decodeOne = (.ok .pending, later)) :
    later = reader.withBuffer later.buffer := by
  fun_induction decodeOne reader with
  | case1 => cases answered
  | case2 => exact withBuffer_of_decodeBehind_pending answered
  | case3 => cases answered
  | case4 =>
      cases answered
      rfl
  | case5 reader unread buffer filled inductionHypothesis =>
      rw [inductionHypothesis answered]
      rfl

/-- Whoever is told that a record is pending finds the model as it was. -/
theorem withBuffer_of_next_pending
    {reader later : LogReader format}
    (answered : reader.next = (.ok .pending, later)) :
    later = reader.withBuffer later.buffer := by
  unfold next at answered
  split at answered
  · cases answered
  · cases answered
  · split at answered
    · cases answered
    · exact withBuffer_of_decodeOne_pending answered

/-- In whatever way the bytes of a log arrive, once its header is there: the
sessions with its reader are those with a reader which finds all bytes in one
read, these all give the same answers and the same model, and a request which
is told that a record is pending leaves the reader as it was but for its
buffer. -/
theorem sessions_of_schedule
    {source : Source}
    {arrivals : List Arrival}
    {header : Header}
    {markers : MarkerTable Marker}
    {size : Nat}
    (flawless : source.Flawless)
    (sound : ∀ arrival ∈ arrivals, ∀ reason, arrival ≠ .failure reason)
    (plain : ¬ Stream.Zstd.magic <+: source.content ++ contentOf arrivals)
    (parsed : Header.parse (unpaused source.queue) format.flag = .ok (some (header, size)))
    (supported : format.markers? header.version = some markers)
    (chunk : Nat) :
    ∃ reader whole : LogReader format,
      open? format source chunk = .ok reader ∧
      open? format (.ofBytes (source.content ++ contentOf arrivals))
        (source.content ++ contentOf arrivals).length = .ok whole ∧
      (∃ settledAnswers settledModel, ∀ answers model,
        Session whole [] answers model ↔ answers = settledAnswers ∧ model = settledModel) ∧
      (∀ answers model, Session reader arrivals answers model ↔ Session whole [] answers model) ∧
      ∀ reached later : LogReader format, reached.next = (.ok .pending, later) →
        later = { reached with buffer := later.buffer } := by
  have early : unpaused source.queue <+: source.content :=
    Stream.unpaused_le_contentOf source.queue
  have parsedAll : Header.parse (source.content ++ contentOf arrivals) format.flag =
      .ok (some (header, size)) := by
    obtain ⟨more, whole⟩ := early
    rw [← whole, List.append_assoc, Header.parse_append (by simp [parsed]), parsed]
  have within : size ≤ source.content.length :=
    Nat.le_trans (Header.size_le_of_parse parsed) early.length_le
  have plainSource : ¬ Stream.Zstd.magic <+: source.content := fun compressed =>
    plain (compressed.trans (List.prefix_append _ _))
  obtain ⟨reader, answered, opened, _⟩ :=
    opened_of_source flawless plainSource parsed supported chunk
  obtain ⟨whole, answeredAll, openedAll, _⟩ :=
    opened_ofBytes plain parsedAll supported (source.content ++ contentOf arrivals).length
  have sameOutlook : reader.outlook arrivals = whole.outlook [] := by
    have withinAll := Header.size_le_of_parse parsedAll
    rw [opened.outlook_eq within, openedAll.outlook_eq withinAll, Stream.contentOf_nil,
      List.append_nil]
  have noArrivals : ∀ arrival ∈ ([] : List Arrival), ∀ reason, arrival ≠ .failure reason := by
    simp
  refine ⟨reader, whole, answered, answeredAll, ?_, ?_, ?_⟩
  · exact ⟨_, _, fun answers model => session_iff openedAll.streams noArrivals⟩
  · intro answers model
    rw [session_iff opened.streams sound, session_iff openedAll.streams noArrivals, sameOutlook]
  · intro reached later pending
    exact withBuffer_of_next_pending pending

end

attribute [local instance] Stream.Zstd.decompressor

/-- A trace log which aborts two traces.  The first record has arrived in part. -/
def abortingLog : Source where
  queue :=
    [.bytes [0x23, 3], .interruption, .bytes [0, 0, 0, 0, 0, 0, 0x1f, 1], .bytes [], .bytes [0]]
  limit := some 3

/-- What arrives later of the log which aborts two traces.  The second record is
truncated. -/
def abortingRest : List Arrival :=
  [.bytes [0, 0, 0], .bytes [], .interruption, .bytes [0, 0, 0, 0x1f, 2]]

/-- A profile with some metadata and a trailer, which arrives byte by byte. -/
def namedProfile : Source where
  queue := [.bytes [0x50, 2, 0, 0, 0, 0, 0, 0, 4, 1, 0, 0], .interruption, .bytes []]
  limit := some 1

/-- What arrives later of the profile with some metadata. -/
def namedRest : List Arrival :=
  [.bytes [0, 0x6f, 0, 0], .bytes [0, 0, 3]]

/-- Logs of both formats which arrive in pieces. -/
theorem sessions_of_scattered_logs :
    (∃ reader whole : LogReader Jitlog.format,
      open? Jitlog.format abortingLog 1 = .ok reader ∧
      open? Jitlog.format (.ofBytes (abortingLog.content ++ contentOf abortingRest)) 19 =
        .ok whole ∧
      ∀ answers model,
        Session reader abortingRest answers model ↔ Session whole [] answers model) ∧
    ∃ reader whole : LogReader Profile.format,
      open? Profile.format namedProfile 64 = .ok reader ∧
      open? Profile.format (.ofBytes (namedProfile.content ++ contentOf namedRest)) 19 =
        .ok whole ∧
      ∀ answers model,
        Session reader namedRest answers model ↔ Session whole [] answers model := by
  constructor
  · have flawless : abortingLog.Flawless := ⟨by decide, by simp [abortingLog]⟩
    have sound : ∀ arrival ∈ abortingRest, ∀ reason, arrival ≠ .failure reason := by
      simp [abortingRest]
    obtain ⟨reader, whole, answered, answeredAll, _, same, _⟩ :=
      @sessions_of_schedule _ _ _ _ Jitlog.format _ _ _ _ _ flawless sound (by decide) rfl rfl 1
    exact ⟨reader, whole, answered, answeredAll, same⟩
  · have flawless : namedProfile.Flawless := ⟨by decide, by simp [namedProfile]⟩
    have sound : ∀ arrival ∈ namedRest, ∀ reason, arrival ≠ .failure reason := by
      simp [namedRest]
    obtain ⟨reader, whole, answered, answeredAll, _, same, _⟩ :=
      @sessions_of_schedule _ _ _ _ Profile.format _ _ _ _ _ flawless sound (by decide) rfl rfl 64
    exact ⟨reader, whole, answered, answeredAll, same⟩

end LogReader
end RuntimeLog
