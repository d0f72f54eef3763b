import RuntimeLog.Proofs.LogReader.Truncation

/-!
# Logs which go on

A log without a fault which is not complete consists of good records.  Further bytes
behind it are decoded with the model to which it decodes by itself.
-/

namespace RuntimeLog
namespace LogReader

variable {Marker Record Model : Type} {format : LogFormat Marker Record Model}
variable {bytes : Bytes} {header : Header} {size : Nat} {markers : MarkerTable Marker}
variable {model : Model} {chunk : Nat}

/-- A log which goes on behind a header does not start like a compressed stream if it
did not before. -/
theorem not_magic_prefix_append
    (plain : ¬ Stream.Zstd.magic <+: bytes)
    (parsed : Header.parse bytes format.flag = .ok (some (header, size)))
    (more : Bytes) :
    ¬ Stream.Zstd.magic <+: bytes ++ more := fun compressed =>
  plain (List.prefix_of_prefix_length_le compressed (List.prefix_append _ _)
    (Header.le_length_of_parse parsed))

variable [Stream.Decompressor]

/-- A log is decoded by a reader which opens and reads all of it. -/
theorem decodeSource_eq_ok_iff {source : Stream.Source} :
    format.decodeSource source chunk = .ok (.ok model) ↔
      ∃ reader, open? format source chunk = .ok reader ∧ reader.readToEnd = .ok model := by
  unfold LogFormat.decodeSource
  cases open? format source chunk with
  | error cause => simp [Except.map]
  | ok reader => simp [Except.map]

/-- A log without a fault which is not complete consists of good records. -/
theorem exists_records_of_decodeSource
    (ledger : format.Ledger)
    (plain : ¬ Stream.Zstd.magic <+: bytes)
    (decoded : format.decodeSource (.ofBytes bytes) chunk = .ok (.ok model))
    (sound : ledger.fault? model = none)
    (incomplete : ¬ format.isComplete model) :
    ∃ header size markers answers,
      Header.parse bytes format.flag = .ok (some (header, size)) ∧
      format.markers? header.version = some markers ∧
      format.Records { header, markers } (format.start header) size (bytes.drop size) answers
        (bytes.drop size).length model := by
  obtain ⟨reader, answered, ended⟩ := decodeSource_eq_ok_iff.mp decoded
  obtain ⟨header, size, markers, parsed, supported, stands⟩ := exists_stands_of_open plain answered
  rw [stands.readToEnd_eq] at ended
  cases ended
  obtain ⟨answers, total, last, records, ends⟩ := ledger.exists_records_of_sound sound
  have exhausted : (bytes.drop size).drop total = [] := by
    refine ends.resolve_left fun complete => incomplete ?_
    rw [records.decodeFrom_eq, LogFormat.decodeFrom_of_complete complete]
    exact complete
  have whole : total = (bytes.drop size).length :=
    Nat.le_antisymm records.total_le (List.drop_eq_nil_iff.mp exhausted)
  have last_eq := records.decodeFrom_take
  rw [List.take_of_length_le (Nat.le_of_eq whole.symm)] at last_eq
  rw [last_eq]
  exact ⟨header, size, markers, answers, parsed, supported, whole ▸ records⟩

/-- A log of good records goes on with whatever follows it. -/
theorem decodeSource_append
    {answers : List Status}
    (plain : ¬ Stream.Zstd.magic <+: bytes)
    (parsed : Header.parse bytes format.flag = .ok (some (header, size)))
    (supported : format.markers? header.version = some markers)
    (records : format.Records { header, markers } (format.start header) size (bytes.drop size)
      answers (bytes.drop size).length model)
    (more : Bytes)
    (chunk : Nat) :
    format.decodeSource (.ofBytes (bytes ++ more)) chunk =
      .ok (.ok (format.decodeFrom { header, markers } model bytes.length more).2) := by
  have within := Header.size_le_of_parse parsed
  have length : size + (bytes.drop size).length = bytes.length := by
    rw [List.length_drop]
    omega
  have parsedLonger := (Header.parse_append (by rw [parsed]; simp) more).trans parsed
  obtain ⟨longer, answered, opened, prompt⟩ :=
    opened_ofBytes (not_magic_prefix_append plain parsed more) parsedLonger supported chunk
  refine decodeSource_eq_ok_iff.mpr ⟨longer, answered, ?_⟩
  rw [(opened.stands prompt).readToEnd_eq, List.drop_append_of_le_length within,
    (records.append more).decodeFrom_eq, List.drop_left, length]

end LogReader
end RuntimeLog
