import RuntimeLog.Proofs.LogReader.Drain
import RuntimeLog.Proofs.LogReader.Replies
import RuntimeLog.Proofs.Stream.Conveyance

/-!
# Readers of conveyed contents

What a reader does depends on the content which its buffer conveys, and not on how
the stream encodes the content or hands it out.  Two readers which face the same
content decode the same records, and end in the same place with the same model.
-/

namespace RuntimeLog

/-- What a log says in front of its records, and where these start. -/
def LogFormat.opening
    {Marker Record Model : Type}
    (format : LogFormat Marker Record Model)
    (bytes : Bytes) : Except OpenError (Dialect Marker × Nat) :=
  match Header.parse bytes format.flag with
  | .ok (some (header, size)) =>
      match format.markers? header.version with
      | none => .error (.unsupportedVersion header.version)
      | some markers => .ok ({ header, markers }, size)
  | .ok none => .error .notEnoughBytes
  | .error cause => .error cause

namespace LogReader

variable [Stream.Decompressor]
variable {Marker Record Model : Type} {format : LogFormat Marker Record Model}
variable {reader later other : LogReader format} {answer : Except String Status}
variable {dialect : Dialect Marker} {model : Model} {offset : Nat} {bytes : Bytes}

/-! ## Single records -/

/-- What a reader replies with, and what becomes of it, once its buffer has received
enough for a verdict on the next record or everything. -/
def settled
    (reader : LogReader format)
    (buffer : Stream.Buffer) : Verdict Model → Except String Status × LogReader format
  | .unfinished => (.ok .pending, reader.withBuffer buffer)
  | .refused marker error model =>
      (.ok .faulted, ({ reader with buffer, model } : LogReader format).stopAt marker error)
  | .decoded marker used model =>
      (.ok (.decoded marker buffer.offset), reader.past buffer used model)

/-- A buffer which has received enough for a verdict on the next record of a content,
or everything. -/
structure Suffices (reader : LogReader format) (bytes : Bytes) (buffer : Stream.Buffer) :
    Prop where
  conveys : buffer.Conveys bytes
  decided : buffer.encoding ≠ .undecided
  offset_eq : buffer.offset = reader.buffer.offset
  whole : format.judge reader.dialect reader.model reader.buffer.offset buffer.unread =
    .unfinished → buffer.unread = bytes

/-- The verdict on the content is that on the unread bytes. -/
theorem Suffices.judge_eq
    {buffer : Stream.Buffer}
    (enough : reader.Suffices bytes buffer) :
    format.judge reader.dialect reader.model reader.buffer.offset bytes =
      format.judge reader.dialect reader.model reader.buffer.offset buffer.unread :=
  LogFormat.judge_of_held enough.conveys.unread_le enough.whole

/-- Behind a known marker, a reader settles on the verdict on the content. -/
theorem settled_of_decodeBehind
    {marker : UInt8}
    {payload : Bytes}
    {meaning : Marker}
    (conveys : reader.buffer.Conveys bytes)
    (decided : reader.buffer.encoding ≠ .undecided)
    (unread : reader.buffer.unread = marker :: payload)
    (found : reader.markers.lookup marker = .ok meaning) :
    ∃ buffer, reader.Suffices bytes buffer ∧
      reader.decodeBehind marker meaning =
        reader.settled buffer
          (format.judge reader.dialect reader.model reader.buffer.offset buffer.unread) := by
  obtain ⟨outcome, buffer, read, still, offset_eq, whole⟩ :=
    Stream.Buffer.conveys_of_readFrom conveys 1
      (.start (format.payload reader.header reader.model meaning))
  obtain ⟨content, lost, receives, ended, _⟩ :=
    Stream.Buffer.receives_of_readFrom decided (by rw [unread]; simp)
      (.start (format.payload reader.header reader.model meaning) (reader.buffer.offset + 1)
        (reader.buffer.unread.drop 1)) read
  have known := (ended outcome rfl).2
  have judged : format.judge reader.dialect reader.model reader.buffer.offset buffer.unread =
      format.judgePayload reader.model reader.buffer.offset marker outcome := by
    rw [receives.unread_eq, unread, List.cons_append, List.drop_one, List.tail_cons] at known
    rw [receives.unread_eq, unread, List.cons_append, LogFormat.judge]
    simp only [dialect, found, known]
  refine ⟨buffer, ⟨still, receives.decided, offset_eq, fun unfinished => whole ?_⟩, ?_⟩
  · rw [judged] at unfinished
    cases outcome with
    | incomplete => rfl
    | malformed error used => cases unfinished
    | complete record used =>
        rw [LogFormat.judgePayload] at unfinished
        split at unfinished <;> cases unfinished
  · rw [judged, ← offset_eq]
    unfold decodeBehind Stream.Buffer.read
    rw [read]
    cases outcome with
    | incomplete => rfl
    | malformed error used => rfl
    | complete record used =>
        simp only [LogFormat.judgePayload]
        cases (format.apply (buffer.offset + 1) record).run reader.model <;> rfl

/-- A reader settles on the verdict on the content. -/
theorem settled_of_decodeOne
    (conveys : reader.buffer.Conveys bytes)
    (decided : reader.buffer.encoding ≠ .undecided) :
    ∃ buffer, reader.Suffices bytes buffer ∧
      reader.decodeOne =
        reader.settled buffer
          (format.judge reader.dialect reader.model reader.buffer.offset buffer.unread) := by
  fun_induction decodeOne reader with
  | case1 reader marker payload unread error unknown =>
      have judged : format.judge reader.dialect reader.model reader.buffer.offset
          reader.buffer.unread = .refused marker error reader.model := by
        rw [unread, LogFormat.judge]
        simp only [dialect, unknown]
      refine ⟨reader.buffer, ⟨conveys, decided, rfl, by simp [judged]⟩, ?_⟩
      rw [judged]
      rfl
  | case2 reader marker payload unread meaning found =>
      exact settled_of_decodeBehind conveys decided unread found
  | case3 reader unread reason buffer filled =>
      obtain ⟨grown, same, answer, _⟩ := Stream.Buffer.conveys_of_fill conveys
      cases filled.symm.trans answer
  | case4 reader unread buffer filled =>
      obtain ⟨grown, same, answer, still, offset_eq, whole⟩ :=
        Stream.Buffer.conveys_of_fill conveys
      cases filled.symm.trans answer
      obtain ⟨content, lost, receives, whether, _⟩ := Stream.Buffer.receives_of_fill decided filled
      obtain rfl : content = [] := by simpa using (whether false rfl).2.symm
      have nothing : buffer.unread = [] := by rw [receives.unread_eq, unread, List.append_nil]
      refine ⟨buffer, ⟨still, receives.decided, offset_eq, fun _ => (whole rfl).2⟩, ?_⟩
      rw [nothing]
      rfl
  | case5 reader unread buffer filled inductionHypothesis =>
      obtain ⟨grown, same, answer, still, offset_eq, _⟩ := Stream.Buffer.conveys_of_fill conveys
      cases filled.symm.trans answer
      obtain ⟨content, lost, receives, _⟩ := Stream.Buffer.receives_of_fill decided filled
      obtain ⟨last, enough, answered⟩ := inductionHypothesis still receives.decided
      simp only [offset_eq] at answered
      refine ⟨last, ⟨enough.conveys, enough.decided, enough.offset_eq.trans offset_eq, ?_⟩,
        answered⟩
      have whole := enough.whole
      simp only [offset_eq] at whole
      exact whole

/-! ## Readers in front of a content -/

/-- A reader which stands at an offset, with some bytes of a content ahead. -/
structure Faces
    (reader : LogReader format)
    (dialect : Dialect Marker)
    (model : Model)
    (offset : Nat)
    (bytes : Bytes) : Prop where
  phase_eq : reader.phase = .streaming
  dialect_eq : reader.dialect = dialect
  model_eq : reader.model = model
  offset_eq : reader.buffer.offset = offset
  decided : reader.buffer.encoding ≠ .undecided
  conveys : reader.buffer.Conveys bytes

/-- The verdict on the bytes ahead. -/
theorem Faces.judge_eq (faces : reader.Faces dialect model offset bytes) :
    format.judge reader.dialect reader.model reader.buffer.offset bytes =
      format.judge dialect model offset bytes := by
  rw [faces.dialect_eq, faces.model_eq, faces.offset_eq]

/-- A reader which faces some bytes goes by the verdict on them. -/
theorem Faces.settles
    (faces : reader.Faces dialect model offset bytes)
    (incomplete : ¬ format.isComplete model) :
    ∃ buffer, reader.Suffices bytes buffer ∧
      reader.next = reader.settled buffer (format.judge dialect model offset bytes) := by
  obtain ⟨buffer, enough, answered⟩ := settled_of_decodeOne faces.conveys faces.decided
  refine ⟨buffer, enough, ?_⟩
  rw [← faces.model_eq] at incomplete
  unfold next
  rw [faces.phase_eq]
  simp only [if_neg incomplete]
  rw [answered, ← enough.judge_eq, faces.judge_eq]

namespace Faces

variable {marker : UInt8}

/-- A reader of a complete log ends. -/
theorem next_of_complete
    (faces : reader.Faces dialect model offset bytes)
    (complete : format.isComplete model) :
    reader.next = (.ok .ended, { reader with phase := .done }) := by
  rw [← faces.model_eq] at complete
  unfold next
  rw [faces.phase_eq]
  simp [complete]

/-- A reader whose content ends inside a record waits for the rest.  It is then the
model which is told that the record is truncated. -/
theorem next_of_unfinished
    (faces : reader.Faces dialect model offset bytes)
    (incomplete : ¬ format.isComplete model)
    (judged : format.judge dialect model offset bytes = .unfinished) :
    ∃ later, reader.next = (.ok .pending, later) ∧
      later.finish.model = format.finished model offset bytes ∧ later.nextOffset = offset := by
  obtain ⟨buffer, enough, answered⟩ := faces.settles incomplete
  have held : buffer.unread = bytes := by
    apply enough.whole
    rw [← enough.judge_eq, ← judged]
    exact faces.judge_eq
  have place : buffer.offset = offset := enough.offset_eq.trans faces.offset_eq
  rw [judged] at answered
  refine ⟨_, answered, ?_, place⟩
  simp only [finish, withBuffer, faces.phase_eq, held]
  cases bytes <;> simp [stopAt, LogFormat.finished, faces.model_eq, place]

/-- A reader in front of a record with a fault stops there. -/
theorem next_of_refused
    {error : DecodeError}
    {left : Model}
    (faces : reader.Faces dialect model offset bytes)
    (incomplete : ¬ format.isComplete model)
    (judged : format.judge dialect model offset bytes = .refused marker error left) :
    ∃ later, reader.next = (.ok .faulted, later) ∧
      later.model = format.stop left { offset, marker := some marker, error } ∧
      later.nextOffset = offset := by
  obtain ⟨buffer, enough, answered⟩ := faces.settles incomplete
  have place : buffer.offset = offset := enough.offset_eq.trans faces.offset_eq
  rw [judged] at answered
  exact ⟨_, answered, by simp [stopAt, place], place⟩

/-- A reader in front of a good record decodes it, and then faces what follows it. -/
theorem next_of_decoded
    {used : Nat}
    {next : Model}
    (faces : reader.Faces dialect model offset bytes)
    (incomplete : ¬ format.isComplete model)
    (judged : format.judge dialect model offset bytes = .decoded marker used next) :
    ∃ later, reader.next = (.ok (.decoded marker offset), later) ∧
      later.Faces dialect next (offset + used) (bytes.drop used) := by
  obtain ⟨buffer, enough, answered⟩ := faces.settles incomplete
  have place : buffer.offset = offset := enough.offset_eq.trans faces.offset_eq
  have held : used ≤ buffer.unread.length := by
    rw [← faces.judge_eq, enough.judge_eq] at judged
    exact (LogFormat.used_of_judge judged).2
  rw [judged, settled, place] at answered
  refine ⟨_, answered, faces.phase_eq, faces.dialect_eq, rfl, ?_, enough.decided,
    enough.conveys.consume enough.decided held⟩
  rw [← place]
  rfl

end Faces

/-! ## Runs -/

/-- Two runs between which nothing tells but the streams of their readers. -/
structure Drained.Agrees (first second : Drained format) : Prop where
  decoded_eq : first.decoded = second.decoded
  last_eq : first.last = second.last
  outcome_eq : ∃ model, first.outcome = .ok model ∧ second.outcome = .ok model
  nextOffset_eq : first.reader.nextOffset = second.reader.nextOffset

/-- A run goes on behind a record which is decoded. -/
theorem drainFrom_of_decoded
    {marker : UInt8}
    {place : Nat}
    (answered : reader.next = (.ok (.decoded marker place), later))
    (found : List (UInt8 × Nat)) :
    reader.drainFrom found = later.drainFrom ((marker, place) :: found) := by
  rw [drainFrom]
  split <;> simp_all

/-- A run ends with an answer which is no record. -/
theorem drainFrom_of_stopped
    (answered : reader.next = (answer, later))
    (stops : ∀ marker place, answer ≠ .ok (.decoded marker place))
    (found : List (UInt8 × Nat)) :
    reader.drainFrom found = { decoded := found.reverse, last := answer, reader := later } := by
  rw [drainFrom]
  split
  · rename_i decoded
    cases answered.symm.trans decoded
    exact absurd rfl (stops _ _)
  · simp_all

/-- Two readers which face the same bytes decode the same records, and end in the same
place with the same model. -/
theorem agrees_of_faces
    (faces : reader.Faces dialect model offset bytes)
    (alike : other.Faces dialect model offset bytes)
    (found : List (UInt8 × Nat)) :
    (reader.drainFrom found).Agrees (other.drainFrom found) := by
  fun_induction LogFormat.decodeFrom format dialect model offset bytes
    generalizing reader other found with
  | case1 model offset bytes complete =>
      rw [drainFrom_of_stopped (faces.next_of_complete complete) (by simp),
        drainFrom_of_stopped (alike.next_of_complete complete) (by simp)]
      refine ⟨rfl, rfl, ⟨model, ?_, ?_⟩, faces.offset_eq.trans alike.offset_eq.symm⟩
      · simp only [Drained.outcome, faces.model_eq]
      · simp only [Drained.outcome, alike.model_eq]
  | case2 model offset bytes incomplete judged =>
      obtain ⟨later, answered, model_eq, place⟩ := faces.next_of_unfinished incomplete judged
      obtain ⟨last, ended, last_eq, same⟩ := alike.next_of_unfinished incomplete judged
      rw [drainFrom_of_stopped answered (by simp), drainFrom_of_stopped ended (by simp)]
      refine ⟨rfl, rfl, ⟨format.finished model offset bytes, ?_, ?_⟩, place.trans same.symm⟩
      · simp only [Drained.outcome, model_eq]
      · simp only [Drained.outcome, last_eq]
  | case3 model offset bytes incomplete marker error next judged =>
      obtain ⟨later, answered, model_eq, place⟩ := faces.next_of_refused incomplete judged
      obtain ⟨last, ended, last_eq, same⟩ := alike.next_of_refused incomplete judged
      rw [drainFrom_of_stopped answered (by simp), drainFrom_of_stopped ended (by simp)]
      refine ⟨rfl, rfl, ⟨later.model, rfl, ?_⟩, place.trans same.symm⟩
      simp only [Drained.outcome, last_eq, model_eq]
  | case4 model offset bytes incomplete marker used next judged =>
      rename_i rest inductionHypothesis
      obtain ⟨later, answered, further⟩ := faces.next_of_decoded incomplete judged
      obtain ⟨last, ended, same⟩ := alike.next_of_decoded incomplete judged
      rw [drainFrom_of_decoded answered, drainFrom_of_decoded ended]
      exact inductionHypothesis further same _

/-! ## Opening -/

/-- What a buffer which conveys a log opens to. -/
inductive Opens
    (format : LogFormat Marker Record Model)
    (bytes : Bytes) :
    Except OpenError (Dialect Marker × Nat) → Except OpenError (LogReader format) → Prop
  | refused (cause : OpenError) : Opens format bytes (.error cause) (.error cause)
  | opened
      {reader : LogReader format}
      {dialect : Dialect Marker}
      {size : Nat}
      (faces : reader.Faces dialect (format.start dialect.header) size (bytes.drop size)) :
      Opens format bytes (.ok (dialect, size)) (.ok reader)

/-- A buffer opens to what the content says in front of its records. -/
theorem opens_of_conveys
    {buffer : Stream.Buffer}
    (plain : ¬ Stream.Zstd.magic <+: bytes)
    (deciding : buffer.Deciding)
    (atStart : buffer.offset = 0)
    (conveys : buffer.Conveys bytes) :
    Opens format bytes (format.opening bytes) (openBuffer format buffer) := by
  have parse_eq {buffer : Stream.Buffer}
      (conveys : buffer.Conveys bytes)
      (settled : Header.parse buffer.unread format.flag ≠ .ok none) :
      Header.parse bytes format.flag = Header.parse buffer.unread format.flag := by
    obtain ⟨more, whole⟩ := conveys.unread_le
    rw [← whole, Header.parse_append settled]
  fun_induction openBuffer format buffer with
  | case1 buffer header size parsed unsupported =>
      rw [LogFormat.opening, parse_eq conveys (by simp [parsed]), parsed]
      simp only [unsupported]
      exact .refused _
  | case2 buffer header size parsed markers supported =>
      rw [LogFormat.opening, parse_eq conveys (by simp [parsed]), parsed]
      simp only [supported]
      have decided : buffer.encoding ≠ .undecided := by
        intro undecided
        have short : buffer.unread.length < 4 := deciding undecided
        have long := Header.le_length_of_parse parsed
        omega
      have behind := conveys.consume decided (Header.size_le_of_parse parsed)
      refine .opened ⟨rfl, rfl, rfl, ?_, decided, behind⟩
      simp [Stream.Buffer.consume, atStart]
  | case3 buffer parsed reason later filled =>
      obtain ⟨grown, same, answer, _⟩ := Stream.Buffer.conveys_of_fill conveys
      cases filled.symm.trans answer
  | case4 buffer parsed later filled =>
      obtain ⟨grown, same, answer, still, _, whole⟩ := Stream.Buffer.conveys_of_fill conveys
      cases filled.symm.trans answer
      rw [LogFormat.opening, ← (whole rfl).1, parsed]
      exact .refused _
  | case5 buffer parsed later filled inductionHypothesis =>
      obtain ⟨grown, same, answer, still, offset_eq, _⟩ := Stream.Buffer.conveys_of_fill conveys
      cases filled.symm.trans answer
      exact inductionHypothesis (deciding.fill filled) (offset_eq.trans atStart) still
  | case6 buffer expected found parsed magic =>
      have starts := (List.isPrefixOf_iff_prefix.mp magic).trans conveys.unread_le
      exact absurd starts plain
  | case7 buffer expected found parsed other =>
      rw [LogFormat.opening, parse_eq conveys (by simp [parsed]), parsed]
      exact .refused _
  | case8 buffer cause other parsed =>
      rw [LogFormat.opening, parse_eq conveys (by simp [parsed]), parsed]
      exact .refused _

/-- Two attempts to open a log between which nothing tells but the streams. -/
inductive OpensAlike :
    Except OpenError (LogReader format) → Except OpenError (LogReader format) → Prop
  | refused (cause : OpenError) : OpensAlike (.error cause) (.error cause)
  | opened
      {reader other : LogReader format}
      (header_eq : reader.header = other.header)
      (agrees : reader.drain.Agrees other.drain) :
      OpensAlike (.ok reader) (.ok other)

/-- Buffers which convey the same log open alike. -/
theorem opensAlike_of_conveys
    {buffer other : Stream.Buffer}
    (plain : ¬ Stream.Zstd.magic <+: bytes)
    (deciding : buffer.Deciding ∧ other.Deciding)
    (atStart : buffer.offset = 0 ∧ other.offset = 0)
    (conveys : buffer.Conveys bytes ∧ other.Conveys bytes) :
    OpensAlike (openBuffer format buffer) (openBuffer format other) := by
  have first : Opens format bytes (format.opening bytes) (openBuffer format buffer) :=
    opens_of_conveys plain deciding.1 atStart.1 conveys.1
  have second : Opens format bytes (format.opening bytes) (openBuffer format other) :=
    opens_of_conveys plain deciding.2 atStart.2 conveys.2
  generalize format.opening bytes = opening, openBuffer format buffer = opened,
    openBuffer format other = reopened at first second
  cases first with
  | refused cause =>
      cases second
      exact .refused cause
  | opened faces =>
      cases second with
      | opened alike =>
          have header_eq := faces.dialect_eq.trans alike.dialect_eq.symm
          exact .opened (congrArg Dialect.header header_eq) (agrees_of_faces faces alike [])

end LogReader
end RuntimeLog
