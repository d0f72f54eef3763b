import RuntimeLog.Proofs.LogReader.Opening

/-!
# Single steps of readers

A request looks at the bytes which are held before it reads any more of the
stream.  Where they say enough, nothing is read; where they do not, the next fill
decides how the request goes on.
-/

namespace RuntimeLog

namespace Stream

/-- A source which has all bytes at hand hands out as many as fit. -/
theorem Source.collect_ofBytes
    {content : Bytes}
    {capacity : Nat}
    (some : content ≠ [])
    (fits : content.length ≤ capacity) :
    (ofBytes content).collect capacity = (.ok content, { queue := [], limit := none }) := by
  obtain ⟨byte, more, rfl⟩ := List.exists_cons_of_ne_nil some
  have positive : capacity ≠ 0 := by
    rw [List.length_cons] at fits
    omega
  have whole : (ofBytes (byte :: more)).read capacity =
      (.bytes (byte :: more), { queue := [], limit := none }) := by
    simp [read, ofBytes, List.take_of_length_le fits, List.drop_eq_nil_of_le fits]
  have nothing (left : Nat) : ({ queue := [], limit := none } : Source).collectFrom left
      ((byte :: more).reverse ++ []) = (.ok (byte :: more), { queue := [], limit := none }) := by
    rw [collectFrom]
    split
    · simp
    · split <;> simp_all [read]
  rw [collect, collectFrom, if_neg positive]
  split
  · simp_all
  · rename_i rest answered
    cases whole.symm.trans answered
    exact nothing _
  · simp_all
  · simp_all

namespace Buffer

variable [Decompressor]
variable {ε α : Type} {buffer later : Buffer} {skip : Nat} {reading : Reading ε α}

/-- A reading which ends on the unread bytes takes nothing from the source. -/
theorem read_of_ended
    (ended : reading.run (buffer.offset + skip) (buffer.unread.drop skip) ≠ .incomplete) :
    buffer.read skip reading =
      (.ok (reading.run (buffer.offset + skip) (buffer.unread.drop skip)), buffer) := by
  unfold read
  fun_cases readFrom buffer skip (.start reading) with
  | case1 further unfinished => exact absurd unfinished ended
  | case2 further unfinished => exact absurd unfinished ended
  | case3 further unfinished => exact absurd unfinished ended
  | case4 => rfl

/-- A reading which needs more than the unread bytes ends with a fill which brings
none. -/
theorem read_of_unfilled
    {answer : Except String Bool}
    (unfinished : reading.run (buffer.offset + skip) (buffer.unread.drop skip) = .incomplete)
    (filled : buffer.fill = (answer, later))
    (unfilled : answer ≠ .ok true) :
    buffer.read skip reading = (answer.map fun _ => .incomplete, later) := by
  unfold read
  fun_cases readFrom buffer skip (.start reading) with
  | case1 further same reason next failed =>
      cases filled.symm.trans failed
      rfl
  | case2 further same next paused =>
      cases filled.symm.trans paused
      rfl
  | case3 further same next grown =>
      cases filled.symm.trans grown
      exact absurd rfl unfilled
  | case4 further ended => exact absurd unfinished ended

end Buffer
end Stream

namespace LogReader

variable [Stream.Decompressor]
variable {Marker Record Model : Type} {format : LogFormat Marker Record Model}

/-- A stream whose header is held opens. -/
theorem openBuffer_of_parsed
    {buffer : Stream.Buffer}
    {header : Header}
    {size : Nat}
    {markers : MarkerTable Marker}
    (parsed : Header.parse buffer.unread format.flag = .ok (some (header, size)))
    (supported : format.markers? header.version = some markers) :
    openBuffer format buffer =
      .ok
        { buffer := buffer.consume size
          header
          markers
          model := format.start header
          phase := .streaming } := by
  unfold openBuffer
  split <;> simp_all

/-- A stream whose header is not there yet opens as it would after a fill. -/
theorem openBuffer_of_fill
    {buffer later : Stream.Buffer}
    (parsed : Header.parse buffer.unread format.flag = .ok none)
    (filled : buffer.fill = (.ok true, later)) :
    openBuffer format buffer = openBuffer format later := by
  rw [openBuffer]
  split
  · simp_all
  · split <;> simp_all
  · simp_all
  · simp_all

/-- A reader which holds all that there is of a log for now, and decoded no record
yet. -/
def holding
    (format : LogFormat Marker Record Model)
    (dialect : Dialect Marker)
    (offset : Nat)
    (unread : Bytes)
    (chunk : Nat) : LogReader format :=
  { buffer :=
      { source := { queue := [], limit := none }
        chunk := max Stream.Buffer.leastChunk chunk
        unread
        offset
        encoding := .plain }
    header := dialect.header
    markers := dialect.markers
    model := format.start dialect.header
    phase := .streaming }

/-- A log which fits into one chunk is held as a whole as soon as it is open. -/
theorem open_ofBytes_of_fits
    {bytes : Bytes}
    {chunk : Nat}
    {header : Header}
    {size : Nat}
    {markers : MarkerTable Marker}
    (plain : ¬ Stream.Zstd.magic <+: bytes)
    (fits : bytes.length ≤ max Stream.Buffer.leastChunk chunk)
    (parsed : Header.parse bytes format.flag = .ok (some (header, size)))
    (supported : format.markers? header.version = some markers) :
    open? format (.ofBytes bytes) chunk =
      .ok (holding format { header, markers } size (bytes.drop size) chunk) := by
  have long := Header.le_length_of_parse parsed
  obtain ⟨byte, more, rfl⟩ : ∃ byte more, bytes = byte :: more :=
    List.exists_cons_of_ne_nil (by rintro rfl; simp at long)
  obtain ⟨encoding, absorbed, settled⟩ := Stream.Buffer.absorb_uncompressed
    (List.cons_ne_nil byte more)
    (Or.inr ⟨rfl, plain⟩ :
      ({ Stream.Buffer.start (.ofBytes (byte :: more)) chunk with
          source := { queue := [], limit := none } } : Stream.Buffer).encoding = .plain ∨ _)
  obtain rfl : encoding = .plain := settled.resolve_right fun ⟨_, _, short⟩ => by
    change (byte :: more).length < 4 at short
    omega
  have filled := Stream.Buffer.fill_of_absorb
    (Stream.Source.collect_ofBytes (List.cons_ne_nil byte more) fits) rfl absorbed
  unfold open?
  rw [openBuffer_of_fill rfl filled, openBuffer_of_parsed parsed supported]
  simp [Stream.Buffer.consume, Stream.Buffer.start, holding]

variable {reader : LogReader format}

/-- A reader whose log goes on decodes a record. -/
theorem next_eq_decodeOne
    (streaming : reader.phase = .streaming)
    (incomplete : ¬ format.isComplete reader.model) :
    reader.next = reader.decodeOne := by
  unfold next
  rw [streaming]
  exact if_neg incomplete

/-- A reader which holds no bytes decodes as it would after a fill. -/
theorem decodeOne_of_fill
    {buffer : Stream.Buffer}
    (nothing : reader.buffer.unread = [])
    (filled : reader.buffer.fill = (.ok true, buffer)) :
    reader.decodeOne = (reader.withBuffer buffer).decodeOne := by
  rw [decodeOne]
  split
  · simp_all
  · split <;> simp_all [withBuffer]

/-- Behind a marker which is held, a reader decodes the record behind it. -/
theorem decodeOne_of_marker
    {marker : UInt8}
    {payload : Bytes}
    {meaning : Marker}
    (unread : reader.buffer.unread = marker :: payload)
    (found : reader.markers.lookup marker = .ok meaning) :
    reader.decodeOne = reader.decodeBehind marker meaning := by
  rw [decodeOne]
  split <;> simp_all

/-- A reader stops at a marker which is held and unknown. -/
theorem decodeOne_of_unknown
    {marker : UInt8}
    {payload : Bytes}
    {error : DecodeError}
    (unread : reader.buffer.unread = marker :: payload)
    (unknown : reader.markers.lookup marker = .error error) :
    reader.decodeOne = (.ok .faulted, reader.stopAt marker error) := by
  rw [decodeOne]
  split <;> simp_all

/-- The verdict on a record which starts with a known marker. -/
theorem judge_of_marker
    {marker : UInt8}
    {payload : Bytes}
    {meaning : Marker}
    (unread : reader.buffer.unread = marker :: payload)
    (found : reader.markers.lookup marker = .ok meaning) :
    format.judge reader.dialect reader.model reader.buffer.offset reader.buffer.unread =
      format.judgePayload reader.model reader.buffer.offset marker
        ((format.payload reader.header reader.model meaning).run (reader.buffer.offset + 1)
          (reader.buffer.unread.drop 1)) := by
  rw [unread, LogFormat.judge]
  simp only [dialect, found, List.drop_one, List.tail_cons]

/-- A record which is held is decoded, and nothing is read for it. -/
theorem decodeOne_of_decoded
    {marker : UInt8}
    {used : Nat}
    {model : Model}
    (judged : format.judge reader.dialect reader.model reader.buffer.offset reader.buffer.unread =
      .decoded marker used model) :
    reader.decodeOne =
      (.ok (.decoded marker reader.buffer.offset), reader.past reader.buffer used model) := by
  cases unread : reader.buffer.unread with
  | nil =>
      rw [unread] at judged
      cases judged
  | cons first payload =>
      cases found : reader.markers.lookup first with
      | error error =>
          rw [unread, LogFormat.judge] at judged
          simp [dialect, found] at judged
      | ok meaning =>
          rw [judge_of_marker unread found] at judged
          rw [decodeOne_of_marker unread found, decodeBehind]
          cases ran : (format.payload reader.header reader.model meaning).run
              (reader.buffer.offset + 1) (reader.buffer.unread.drop 1) with
          | incomplete =>
              rw [ran] at judged
              cases judged
          | malformed error count =>
              rw [ran] at judged
              cases judged
          | complete record count =>
              rw [Stream.Buffer.read_of_ended (by rw [ran]; simp), ran]
              rw [ran, LogFormat.judgePayload] at judged
              dsimp only
              cases applied : (format.apply (reader.buffer.offset + 1) record).run reader.model with
              | error error model => simp [applied] at judged
              | ok value next =>
                  rw [applied] at judged
                  cases judged
                  rfl

/-- A reader which holds no bytes is pending, or fails, where a fill brings none. -/
theorem decodeOne_of_unfilled
    {answer : Except String Bool}
    {buffer : Stream.Buffer}
    (nothing : reader.buffer.unread = [])
    (filled : reader.buffer.fill = (answer, buffer))
    (unfilled : answer ≠ .ok true) :
    reader.decodeOne = (answer.map fun _ => .pending, reader.withBuffer buffer) := by
  rw [decodeOne]
  split
  · simp_all
  · split
    · rename_i failed
      cases filled.symm.trans failed
      rfl
    · rename_i paused
      cases filled.symm.trans paused
      rfl
    · rename_i grown
      cases filled.symm.trans grown
      exact absurd rfl unfilled

/-- A record which is held in part is still pending, or a read for it fails, where a
fill brings no more of it. -/
theorem decodeOne_of_unfinished
    {answer : Except String Bool}
    {buffer : Stream.Buffer}
    (judged : format.judge reader.dialect reader.model reader.buffer.offset reader.buffer.unread =
      .unfinished)
    (filled : reader.buffer.fill = (answer, buffer))
    (unfilled : answer ≠ .ok true) :
    reader.decodeOne = (answer.map fun _ => .pending, reader.withBuffer buffer) := by
  cases unread : reader.buffer.unread with
  | nil => exact decodeOne_of_unfilled unread filled unfilled
  | cons first payload =>
      cases found : reader.markers.lookup first with
      | error error =>
          rw [unread, LogFormat.judge] at judged
          simp [dialect, found] at judged
      | ok meaning =>
          rw [judge_of_marker unread found] at judged
          have unfinished : (format.payload reader.header reader.model meaning).run
              (reader.buffer.offset + 1) (reader.buffer.unread.drop 1) = .incomplete := by
            cases ran : (format.payload reader.header reader.model meaning).run
                (reader.buffer.offset + 1) (reader.buffer.unread.drop 1) with
            | incomplete => rfl
            | malformed error count =>
                rw [ran] at judged
                cases judged
            | complete record count =>
                rw [ran, LogFormat.judgePayload] at judged
                split at judged <;> cases judged
          rw [decodeOne_of_marker unread found, decodeBehind,
            Stream.Buffer.read_of_unfilled unfinished filled unfilled]
          cases answer <;> rfl

/-- A reader whose log goes on answers with a record which it holds. -/
theorem next_of_decoded
    (reader : LogReader format)
    {marker : UInt8}
    {used : Nat}
    {model : Model}
    (streaming : reader.phase = .streaming)
    (incomplete : ¬ format.isComplete reader.model)
    (judged : format.judge reader.dialect reader.model reader.buffer.offset reader.buffer.unread =
      .decoded marker used model) :
    reader.next =
      (.ok (.decoded marker reader.buffer.offset), reader.past reader.buffer used model) :=
  (next_eq_decodeOne streaming incomplete).trans (decodeOne_of_decoded judged)

/-- A reader whose log goes on waits for the rest of a record, or fails, where a fill
brings no more of it. -/
theorem next_of_unfinished
    (reader : LogReader format)
    {answer : Except String Bool}
    {buffer : Stream.Buffer}
    (streaming : reader.phase = .streaming)
    (incomplete : ¬ format.isComplete reader.model)
    (judged : format.judge reader.dialect reader.model reader.buffer.offset reader.buffer.unread =
      .unfinished)
    (filled : reader.buffer.fill = (answer, buffer))
    (unfilled : answer ≠ .ok true) :
    reader.next = (answer.map fun _ => .pending, reader.withBuffer buffer) :=
  (next_eq_decodeOne streaming incomplete).trans
    (decodeOne_of_unfinished judged filled unfilled)

end LogReader
end RuntimeLog
