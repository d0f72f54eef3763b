import RuntimeLog.Proofs.LogReader.Conveyance
import RuntimeLog.Proofs.LogReader.Truncation
import RuntimeLog.Proofs.Stream.Zstd.Following
import RuntimeLog.Stream.Zstd.Decoder

/-!
# Transparent compression

A log in frames opens and is read as the log itself is, whichever frames encode it and
however small the pieces are in which either stream is taken.
-/

namespace RuntimeLog
namespace LogReader

open Stream.Zstd

section

variable [Stream.Decompressor]
variable {Marker Record Model : Type}

/-- Compression is transparent.  A log is read from a stream of frames, the first of which
is not one to skip, or from a stream of its own bytes, which do not start like frames.  Both
streams open with the same error, or with the same header and then to the same records, the
same model with its fault and the same offsets.  Neither the chunks nor the reads matter.
What is assumed of the library which decompresses is that it accepts valid frames in whatever
pieces, and that it has written what they denote once it took all of them and had room
left. -/
theorem opensAlike_of_encoding
    (format : LogFormat Marker Record Model)
    {items : List Item}
    {compressed uncompressed : Stream.Source}
    (valid : ∀ item ∈ items, item.Valid)
    (begins : ∃ packed rest, items = .frame packed :: rest)
    (plain : ¬ magic <+: contentAll items)
    (assumed : (∀ item ∈ items, item.Valid) →
      Stream.Decompressor.Decompresses (encodeAll items) (contentAll items))
    (flawless : compressed.Flawless ∧ uncompressed.Flawless)
    (prompt : compressed.Prompt ∧ uncompressed.Prompt)
    (encoded : compressed.content = encodeAll items)
    (itself : uncompressed.content = contentAll items)
    (chunk other : Nat) :
    OpensAlike (open? format compressed chunk) (open? format uncompressed other) := by
  have starts : magic <+: compressed.content := encoded ▸ magic_le_encodeAll begins
  have decompresses : Stream.Decompressor.Decompresses compressed.content (contentAll items) :=
    encoded ▸ assumed valid
  have foreign : ¬ magic <+: uncompressed.content := itself ▸ plain
  have decompressed : (Stream.Buffer.start compressed chunk).Conveys (contentAll items) :=
    Stream.Buffer.conveys_start_of_decompresses flawless.1 prompt.1 starts decompresses chunk
  have same : (Stream.Buffer.start uncompressed other).Conveys (contentAll items) :=
    itself ▸ Stream.Buffer.conveys_start_of_plain flawless.2 prompt.2 foreign other
  exact opensAlike_of_conveys plain
    ⟨Stream.Buffer.deciding_start compressed chunk,
      Stream.Buffer.deciding_start uncompressed other⟩
    ⟨rfl, rfl⟩ ⟨decompressed, same⟩

end

attribute [local instance] Stream.Zstd.decompressor

/-- The log in which two traces are aborted, in two frames with one to skip between
them. -/
def packedTraces : Bytes :=
  [0x28, 0xb5, 0x2f, 0xfd, 0x20, 8] ++ [0x10, 0, 0, 0x23, 3] ++ [0x33, 0, 0, 0] ++
    [0x53, 0x2a, 0x4d, 0x18, 1, 0, 0, 0, 9] ++
    [0x28, 0xb5, 0x2f, 0xfd, 0, 0] ++ [0x10, 0, 0, 0x1f, 1] ++ [0x3a, 0, 0, 0] ++
      [0x49, 0, 0, 0x1f, 2, 0, 0, 0, 0, 0, 0, 0]

/-- The log is encoded by frames none of which is doubtful. -/
theorem exists_clear_packedTraces :
    ∃ items : List Item,
      (∀ item ∈ items, item.Clear) ∧ (∃ packed rest, items = .frame packed :: rest) ∧
      encodeAll items = packedTraces ∧ contentAll items = abortedTraces := by
  let header : PackedFrame :=
    { window := none
      sizeCode := 0
      blocks := .cons (.plain [0x23, 3]) (.last (.run 0 6)) }
  let records : PackedFrame :=
    { window := some 0
      sizeCode := 0
      blocks := .cons (.plain [0x1f, 1]) (.cons (.run 0 7)
        (.last (.plain [0x1f, 2, 0, 0, 0, 0, 0, 0, 0]))) }
  refine ⟨[.frame header, .skipped 3 [9], .frame records], ?_, ⟨_, _, rfl⟩, rfl, rfl⟩
  simp only [List.forall_mem_cons]
  refine ⟨?_, ⟨by decide, id⟩, ?_, by simp⟩
  · exact Item.clear_of_length_ne (by decide) (by decide) (by decide)
  · exact Item.clear_of_length_ne (by decide) (by decide) (by decide)

/-- The stream of the frames, with an interruption in it and three bytes at most for each
read. -/
def packedStream : Stream.Source :=
  { queue := [.bytes (packedTraces.take 7), .interruption, .bytes (packedTraces.drop 7)]
    limit := some 3 }

/-- The log in frames opens, and is read as the log itself is. -/
theorem opensAlike_of_packedTraces :
    ∃ reader other,
      open? Jitlog.format packedStream 16 = .ok reader ∧
      open? Jitlog.format (.ofBytes abortedTraces) 32 = .ok other ∧
      reader.header = abortedHeader ∧ reader.drain.Agrees other.drain ∧
      reader.readToEnd = .ok bothAbortedForest := by
  obtain ⟨items, clear, begins, encoded, content_eq⟩ := exists_clear_packedTraces
  have plain : ¬ magic <+: contentAll items := by
    rw [content_eq]
    decide
  have alike : OpensAlike (open? Jitlog.format packedStream 16)
      (open? Jitlog.format (.ofBytes abortedTraces) 32) :=
    opensAlike_of_encoding Jitlog.format (fun item member => (clear item member).valid) begins
      plain
      (fun _ => decompresses_of_clear clear)
      ⟨⟨by decide, by simp [packedStream]⟩, Stream.Source.flawless_ofBytes _⟩
      ⟨by rfl, Stream.Source.prompt_ofBytes _⟩
      (encoded ▸ by rfl) (content_eq ▸ Stream.Source.content_ofBytes _) 16 32
  have parsed : Header.parse abortedTraces Jitlog.format.flag =
      .ok (some (abortedHeader, 8)) := rfl
  obtain ⟨markers, supported, first, second⟩ := judge_abortedTraces
  obtain ⟨other, answered, opened, prompt⟩ := opened_ofBytes (by decide) parsed supported 32
  have ended := (opened.stands prompt).readToEnd_eq
  rw [LogFormat.decodeFrom_of_decoded (by decide) first,
    LogFormat.decodeFrom_of_decoded (by decide) second,
    LogFormat.decodeFrom_of_unfinished (by decide) rfl] at ended
  rw [answered] at alike ⊢
  generalize open? Jitlog.format packedStream 16 = answer at alike ⊢
  cases alike with
  | opened header_eq agrees =>
      obtain ⟨model, outcome, same⟩ := agrees.outcome_eq
      cases same.symm.trans ended
      exact ⟨_, _, rfl, rfl, header_eq.trans (congrArg Dialect.header opened.dialect_eq), agrees,
        outcome⟩

end LogReader
end RuntimeLog
