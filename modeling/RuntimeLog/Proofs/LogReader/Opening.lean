import RuntimeLog.Proofs.LogReader.Decoding

/-!
# Opening of logs

A reader in front of an uncompressed stream opens as soon as the header has
arrived, in whatever pieces it did, and then stands at the first record.
-/

namespace RuntimeLog

namespace Header

variable {bytes : Bytes} {flag : UInt8}

/-- Whether a header is good does not depend on what follows it. -/
theorem parse_append (settled : parse bytes flag ≠ .ok none) (more : Bytes) :
    parse (bytes ++ more) flag = parse bytes flag := by
  have ended : (reading flag).run 0 bytes ≠ .incomplete := by
    intro incomplete
    simp [parse, incomplete] at settled
  rw [parse, Reading.run_append ended, parse]

/-- A header is no shorter than the start by which compressed streams are told. -/
theorem le_length_of_parse
    {header : Header}
    {size : Nat}
    (parsed : parse bytes flag = .ok (some (header, size))) :
    4 ≤ bytes.length := by
  unfold parse at parsed
  split at parsed
  · rename_i complete
    unfold reading at complete
    rw [Reading.u8_bind] at complete
    obtain ⟨one, complete⟩ := Reading.complete_of_take complete
    split at complete
    · cases complete
    · rw [Reading.u16_bind] at complete
      obtain ⟨two, complete⟩ := Reading.complete_of_take complete
      rw [Reading.u8_bind] at complete
      obtain ⟨three, _⟩ := Reading.complete_of_take complete
      simp only [List.length_drop] at two three
      omega
  · cases parsed
  · cases parsed

/-- A header takes up no more than there is. -/
theorem size_le_of_parse
    {header : Header}
    {size : Nat}
    (parsed : parse bytes flag = .ok (some (header, size))) :
    size ≤ bytes.length := by
  unfold parse at parsed
  split at parsed
  · rename_i complete
    cases parsed
    exact Reading.used_le_of_run complete
  · cases parsed
  · cases parsed

/-- A header is read in the same way when bytes behind it are cut off. -/
theorem parse_take
    {header : Header}
    {size count : Nat}
    (parsed : parse bytes flag = .ok (some (header, size)))
    (enough : size ≤ count) :
    parse (bytes.take count) flag = .ok (some (header, size)) := by
  unfold parse at parsed
  split at parsed
  · rename_i complete
    cases parsed
    unfold parse
    rw [Reading.run_take complete enough]
  · cases parsed
  · cases parsed

end Header

namespace LogReader

variable [Stream.Decompressor]
variable {Marker Record Model : Type} {format : LogFormat Marker Record Model}

/-- A reader which has just read the header of a log. -/
structure Opened
    (reader : LogReader format)
    (header : Header)
    (markers : MarkerTable Marker)
    (size : Nat)
    (bytes : Bytes) : Prop where
  streams : reader.Streams
  dialect_eq : reader.dialect = { header, markers }
  model_eq : reader.model = format.start header
  offset_eq : reader.buffer.offset = size
  ahead_eq : reader.buffer.ahead = bytes.drop size

/-- A buffer at the start of a stream opens if the header arrives before the
first pause.  Where the stream does not pause, it does not behind the header. -/
theorem opened_of_openBuffer
    {buffer : Stream.Buffer}
    {header : Header}
    {markers : MarkerTable Marker}
    {size : Nat}
    (uncompressed : buffer.Uncompressed)
    (atStart : buffer.offset = 0)
    (parsed : Header.parse (buffer.unread ++ Stream.unpaused buffer.source.queue) format.flag =
      .ok (some (header, size)))
    (supported : format.markers? header.version = some markers) :
    ∃ reader, openBuffer format buffer = .ok reader ∧
      reader.Opened header markers size buffer.ahead ∧
      (buffer.source.Prompt → reader.buffer.source.Prompt) := by
  have header_eq {found : Except OpenError (Option (Header × Nat))}
      {buffer : Stream.Buffer}
      (parsed : Header.parse (buffer.unread ++ Stream.unpaused buffer.source.queue) format.flag =
        .ok (some (header, size)))
      (here : Header.parse buffer.unread format.flag = found)
      (settled : found ≠ .ok none) : found = .ok (some (header, size)) := by
    rw [← here, ← parsed, Header.parse_append (here ▸ settled)]
  fun_induction openBuffer format buffer with
  | case1 buffer found length here unsupported =>
      cases header_eq parsed here (by simp)
      rw [supported] at unsupported
      cases unsupported
  | case2 buffer found length here table known =>
      cases header_eq parsed here (by simp)
      cases supported.symm.trans known
      have plain : buffer.encoding = .plain := by
        have long := Header.le_length_of_parse here
        rcases uncompressed.encoding with plain | ⟨_, short, _⟩
        · exact plain
        · exact absurd (Nat.lt_of_le_of_lt long short) (by decide)
      refine ⟨_, rfl, ⟨⟨rfl, ?_, plain⟩, rfl, rfl, ?_, ?_⟩, id⟩
      · exact ⟨uncompressed.flawless, uncompressed.chunk_ne_zero, Or.inl plain⟩
      · simp [Stream.Buffer.consume, atStart]
      · have behind := Header.size_le_of_parse here
        simp only [Stream.Buffer.consume, Stream.Buffer.ahead]
        rw [List.drop_append_of_le_length behind]
  | case3 buffer here reason later filled =>
      exact absurd filled (Stream.Buffer.fill_ne_error uncompressed)
  | case4 buffer here later filled =>
      have nothing := (Stream.Buffer.paused_of_fill_false uncompressed filled).2.1
      rw [nothing, List.append_nil, here] at parsed
      cases parsed
  | case5 buffer here later filled inductionHypothesis =>
      obtain ⟨content, grows⟩ := Stream.Buffer.grows_of_fill_true uncompressed filled
      rw [← grows.ahead_eq]
      have parsedLater : Header.parse (later.unread ++ Stream.unpaused later.source.queue)
          format.flag = .ok (some (header, size)) := by
        obtain ⟨more, held⟩ := grows.unpaused_le
        rw [← held, Header.parse_append (by rw [parsed]; simp), parsed]
      obtain ⟨reader, answered, opened, prompt⟩ :=
        inductionHypothesis grows.uncompressed (grows.offset_eq.trans atStart) parsedLater
      exact ⟨reader, answered, opened, prompt ∘ grows.prompt⟩
  | case6 buffer expected found here =>
      cases header_eq parsed here (by simp)
  | case7 buffer expected found here =>
      cases header_eq parsed here (by simp)
  | case8 buffer cause _ here =>
      cases header_eq parsed here (by simp)

/-- A log opens if its bytes do not start like a compressed stream and its header
arrives before the first pause. -/
theorem opened_of_source
    {source : Stream.Source}
    {header : Header}
    {markers : MarkerTable Marker}
    {size : Nat}
    (flawless : source.Flawless)
    (plain : ¬ Stream.Zstd.magic <+: source.content)
    (parsed : Header.parse (Stream.unpaused source.queue) format.flag = .ok (some (header, size)))
    (supported : format.markers? header.version = some markers)
    (chunk : Nat) :
    ∃ reader, open? format source chunk = .ok reader ∧
      reader.Opened header markers size source.content ∧
      (source.Prompt → reader.buffer.source.Prompt) := by
  have uncompressed := Stream.Buffer.uncompressed_start flawless plain chunk
  exact opened_of_openBuffer uncompressed rfl parsed supported

/-- A log which is at hand as a whole opens if it has a header and does not start
like a compressed stream. -/
theorem opened_ofBytes
    {bytes : Bytes}
    {header : Header}
    {markers : MarkerTable Marker}
    {size : Nat}
    (plain : ¬ Stream.Zstd.magic <+: bytes)
    (parsed : Header.parse bytes format.flag = .ok (some (header, size)))
    (supported : format.markers? header.version = some markers)
    (chunk : Nat) :
    ∃ reader, open? format (.ofBytes bytes) chunk = .ok reader ∧
      reader.Opened header markers size bytes ∧ reader.buffer.source.Prompt := by
  have content := Stream.Source.content_ofBytes bytes
  have prompt := Stream.Source.prompt_ofBytes bytes
  have atOnce : Stream.unpaused (Stream.Source.ofBytes bytes).queue = bytes :=
    prompt.trans content
  rw [← content] at plain
  rw [← atOnce] at parsed
  obtain ⟨reader, answered, opened, still⟩ :=
    opened_of_source (Stream.Source.flawless_ofBytes bytes) plain parsed supported chunk
  rw [content] at opened
  exact ⟨reader, answered, opened, still prompt⟩

/-- A buffer which opens has the header of a log ahead. -/
theorem exists_header_of_openBuffer
    {buffer : Stream.Buffer}
    {reader : LogReader format}
    (uncompressed : buffer.Uncompressed)
    (opened : openBuffer format buffer = .ok reader) :
    ∃ header size markers,
      Header.parse buffer.ahead format.flag = .ok (some (header, size)) ∧
      format.markers? header.version = some markers := by
  fun_induction openBuffer format buffer with
  | case1 => cases opened
  | case2 buffer header size here markers supported =>
      refine ⟨header, size, markers, ?_, supported⟩
      rw [Stream.Buffer.ahead, Header.parse_append (by rw [here]; simp), here]
  | case3 => cases opened
  | case4 => cases opened
  | case5 buffer here later filled inductionHypothesis =>
      obtain ⟨content, grows⟩ := Stream.Buffer.grows_of_fill_true uncompressed filled
      rw [← grows.ahead_eq]
      exact inductionHypothesis grows.uncompressed opened
  | case6 => cases opened
  | case7 => cases opened
  | case8 => cases opened

/-- A log which opens has a header. -/
theorem exists_header_of_ofBytes
    {bytes : Bytes}
    {chunk : Nat}
    {reader : LogReader format}
    (plain : ¬ Stream.Zstd.magic <+: bytes)
    (opened : open? format (.ofBytes bytes) chunk = .ok reader) :
    ∃ header size markers,
      Header.parse bytes format.flag = .ok (some (header, size)) ∧
      format.markers? header.version = some markers := by
  rw [← Stream.Source.content_ofBytes bytes] at plain
  have uncompressed :=
    Stream.Buffer.uncompressed_start (Stream.Source.flawless_ofBytes bytes) plain chunk
  have found := exists_header_of_openBuffer uncompressed opened
  simpa [Stream.Buffer.ahead, Stream.Buffer.start] using found

end LogReader
end RuntimeLog
