import RuntimeLog.Proofs.LogReader.Faults

/-!
# Histories of readers

The history of a reader is the list of the records which it decoded.  A reader
gets to a state by being opened and asked for records, in any order with
arrivals at the end of its stream.  What holds of the model at the start, is kept
by every record and does not depend on the fault holds in every such state.
-/

namespace RuntimeLog
namespace LogReader

variable [Stream.Decompressor]
variable {Marker Record Model : Type} {format : LogFormat Marker Record Model}

/-- A reader which decodes a record: it fills its buffer until a marker is there,
reads the record behind the marker and lets it change the model. -/
inductive Takes : LogReader format → UInt8 → Nat → Record → LogReader format → Prop
  | here
      {reader : LogReader format}
      {buffer : Stream.Buffer}
      {marker : UInt8}
      {payload : Bytes}
      {meaning : Marker}
      {record : Record}
      {used : Nat}
      {model : Model}
      (unread : reader.buffer.unread = marker :: payload)
      (found : reader.markers.lookup marker = .ok meaning)
      (read : reader.buffer.read 1 (format.payload reader.header reader.model meaning) =
        (.ok (.complete record used), buffer))
      (applied : (format.apply (buffer.offset + 1) record).run reader.model = .ok () model) :
      Takes reader marker buffer.offset record
        { reader with
          buffer := buffer.consume (1 + used)
          model := format.advance model (buffer.offset + 1 + used) }
  | filled
      {reader later : LogReader format}
      {buffer : Stream.Buffer}
      {marker : UInt8}
      {offset : Nat}
      {record : Record}
      (nothing : reader.buffer.unread = [])
      (grown : reader.buffer.fill = (.ok true, buffer))
      (taken : Takes { reader with buffer } marker offset record later) :
      Takes reader marker offset record later

/-- A state of a reader of a stream, with the records which it decoded so far,
newest first. -/
inductive Reached (source : Stream.Source) (chunk : Nat) :
    List Record → LogReader format → Prop
  | opened
      {reader : LogReader format}
      (answered : open? format source chunk = .ok reader) :
      Reached source chunk [] reader
  | arrived
      {reader : LogReader format}
      {history : List Record}
      (before : Reached source chunk history reader)
      (arrival : Stream.Arrival) :
      Reached source chunk history (reader.push arrival)
  | decoded
      {reader later : LogReader format}
      {history : List Record}
      {marker : UInt8}
      {offset : Nat}
      {record : Record}
      (before : Reached source chunk history reader)
      (answered : reader.next = (.ok (.decoded marker offset), later))
      (taken : reader.Takes marker offset record later) :
      Reached source chunk (record :: history) later
  | answered
      {reader later : LogReader format}
      {history : List Record}
      {answer : Except String Status}
      (before : Reached source chunk history reader)
      (answered : reader.next = (answer, later))
      (other : ∀ marker offset, answer ≠ .ok (.decoded marker offset)) :
      Reached source chunk history later
  | finished
      {reader : LogReader format}
      {history : List Record}
      (before : Reached source chunk history reader) :
      Reached source chunk history reader.finish

/-! ## Decoded records -/

/-- Behind a marker, a decoded record was taken. -/
theorem takes_of_decodeBehind
    {reader later : LogReader format}
    {first marker : UInt8}
    {payload : Bytes}
    {meaning : Marker}
    {offset : Nat}
    (unread : reader.buffer.unread = first :: payload)
    (found : reader.markers.lookup first = .ok meaning)
    (decoded : reader.decodeBehind first meaning = (.ok (.decoded marker offset), later)) :
    ∃ record, reader.Takes marker offset record later := by
  unfold decodeBehind at decoded
  split at decoded
  · cases decoded
  · cases decoded
  · cases decoded
  · rename_i record used buffer read
    split at decoded
    · cases decoded
    · rename_i model applied
      cases decoded
      exact ⟨record, .here unread found read applied⟩

/-- A decoded record was taken. -/
theorem takes_of_decodeOne
    {reader later : LogReader format}
    {marker : UInt8}
    {offset : Nat}
    (decoded : reader.decodeOne = (.ok (.decoded marker offset), later)) :
    ∃ record, reader.Takes marker offset record later := by
  fun_induction decodeOne reader with
  | case1 => cases decoded
  | case2 reader first payload unread meaning found =>
      exact takes_of_decodeBehind unread found decoded
  | case3 => cases decoded
  | case4 => cases decoded
  | case5 reader nothing buffer grown inductionHypothesis =>
      obtain ⟨record, taken⟩ := inductionHypothesis decoded
      exact ⟨record, .filled nothing grown taken⟩

/-- A reader which answers with a record has taken one. -/
theorem takes_of_next
    {reader later : LogReader format}
    {marker : UInt8}
    {offset : Nat}
    (answered : reader.next = (.ok (.decoded marker offset), later)) :
    ∃ record, reader.Takes marker offset record later := by
  unfold next at answered
  split at answered
  · cases answered
  · cases answered
  · split at answered
    · cases answered
    · exact takes_of_decodeOne answered

/-- A record which was taken changed the model, which was then told where it
ends. -/
theorem Takes.applied
    {reader later : LogReader format}
    {marker : UInt8}
    {offset : Nat}
    {record : Record}
    (taken : reader.Takes marker offset record later) :
    ∃ applied behind,
      (format.apply (offset + 1) record).run reader.model = .ok () applied ∧
      later.model = format.advance applied behind := by
  induction taken with
  | here unread found read applied => exact ⟨_, _, applied, rfl⟩
  | filled nothing grown taken inductionHypothesis => exact inductionHypothesis

/-- Every request leads on from a state of a reader. -/
theorem Reached.next
    {source : Stream.Source}
    {chunk : Nat}
    {history : List Record}
    {reader : LogReader format}
    (before : Reached source chunk history reader) :
    ∃ records, Reached source chunk (records ++ history) reader.next.2 ∧ records.length ≤ 1 := by
  cases answered : reader.next with
  | mk answer later =>
      by_cases decoded : ∃ marker offset, answer = .ok (.decoded marker offset)
      · obtain ⟨marker, offset, rfl⟩ := decoded
        obtain ⟨record, taken⟩ := takes_of_next answered
        exact ⟨[record], .decoded before answered taken, Nat.le_refl 1⟩
      · have other : ∀ marker offset, answer ≠ .ok (.decoded marker offset) :=
          fun marker offset same => decoded ⟨marker, offset, same⟩
        exact ⟨[], .answered before answered other, Nat.zero_le 1⟩

/-- A reader was in some state when it had decoded the first ones of its records. -/
theorem Reached.earlier
    {source : Stream.Source}
    {chunk : Nat}
    {newer older : List Record}
    {reader : LogReader format}
    (reached : Reached source chunk (newer ++ older) reader) :
    ∃ before : LogReader format, Reached source chunk older before := by
  generalize whole : newer ++ older = history at reached
  induction reached generalizing newer with
  | opened answered =>
      obtain ⟨_, rfl⟩ := List.append_eq_nil_iff.mp whole
      exact ⟨_, .opened answered⟩
  | arrived before arrival inductionHypothesis => exact inductionHypothesis whole
  | decoded before answered taken inductionHypothesis =>
      cases newer with
      | nil =>
          cases whole
          exact ⟨_, .decoded before answered taken⟩
      | cons record newer =>
          obtain ⟨_, rest⟩ := List.cons_eq_cons.mp whole
          exact inductionHypothesis rest
  | answered before answered other inductionHypothesis => exact inductionHypothesis whole
  | finished before inductionHypothesis => exact inductionHypothesis whole

/-! ## What histories preserve -/

/-- Behind a marker, a reader which decodes no record changes no more of the
model than its fault. -/
theorem model_of_decodeBehind
    (ledger : format.Ledger)
    {reader later : LogReader format}
    {first : UInt8}
    {meaning : Marker}
    {answer : Except String Status}
    (answered : reader.decodeBehind first meaning = (answer, later))
    (other : ∀ marker offset, answer ≠ .ok (.decoded marker offset)) :
    later.model = reader.model ∨ ∃ fault, later.model = format.stop reader.model fault := by
  unfold decodeBehind at answered
  split at answered
  · cases answered
    exact Or.inl rfl
  · cases answered
    exact Or.inl rfl
  · cases answered
    exact Or.inr ⟨_, rfl⟩
  · split at answered
    · rename_i failed
      cases answered
      rw [ledger.eq_of_error failed]
      exact Or.inr ⟨_, rfl⟩
    · cases answered
      exact absurd rfl (other _ _)

/-- A reader which decodes no record changes no more of the model than its
fault. -/
theorem model_of_decodeOne
    (ledger : format.Ledger)
    {reader later : LogReader format}
    {answer : Except String Status}
    (answered : reader.decodeOne = (answer, later))
    (other : ∀ marker offset, answer ≠ .ok (.decoded marker offset)) :
    later.model = reader.model ∨ ∃ fault, later.model = format.stop reader.model fault := by
  fun_induction decodeOne reader with
  | case1 =>
      cases answered
      exact Or.inr ⟨_, rfl⟩
  | case2 => exact model_of_decodeBehind ledger answered other
  | case3 =>
      cases answered
      exact Or.inl rfl
  | case4 =>
      cases answered
      exact Or.inl rfl
  | case5 reader nothing buffer grown inductionHypothesis => exact inductionHypothesis answered

/-- A request which is answered without a record changes no more of the model
than its fault. -/
theorem model_of_next
    (ledger : format.Ledger)
    {reader later : LogReader format}
    {answer : Except String Status}
    (answered : reader.next = (answer, later))
    (other : ∀ marker offset, answer ≠ .ok (.decoded marker offset)) :
    later.model = reader.model ∨ ∃ fault, later.model = format.stop reader.model fault := by
  unfold next at answered
  split at answered
  · cases answered
    exact Or.inl rfl
  · cases answered
    exact Or.inl rfl
  · split at answered
    · cases answered
      exact Or.inl rfl
    · exact model_of_decodeOne ledger answered other

/-- To declare that nothing more will arrive changes no more of the model than
its fault. -/
theorem model_finish (reader : LogReader format) :
    reader.finish.model = reader.model ∨
      ∃ fault, reader.finish.model = format.stop reader.model fault := by
  unfold finish
  split
  · split
    · exact Or.inl rfl
    · exact Or.inr ⟨_, rfl⟩
  · exact Or.inl rfl

/-- An opened reader has the model without records. -/
theorem model_of_openBuffer
    {buffer : Stream.Buffer}
    {reader : LogReader format}
    (answered : openBuffer format buffer = .ok reader) :
    ∃ header, reader.model = format.start header := by
  fun_induction openBuffer format buffer with
  | case1 => cases answered
  | case2 buffer header size parsed markers supported =>
      cases answered
      exact ⟨header, rfl⟩
  | case3 => cases answered
  | case4 => cases answered
  | case5 buffer parsed later filled inductionHypothesis => exact inductionHypothesis answered
  | case6 => cases answered
  | case7 => cases answered
  | case8 => cases answered

/-- What holds without records, is kept by every record and does not depend on
the fault holds in every state of a reader. -/
theorem Reached.preserves
    (ledger : format.Ledger)
    {source : Stream.Source}
    {chunk : Nat}
    {history : List Record}
    {reader : LogReader format}
    (reached : Reached source chunk history reader)
    (property : List Record → Model → Prop)
    (atStart : ∀ header, property [] (format.start header))
    (step : ∀ past record offset model next behind,
      property past model → (format.apply offset record).run model = .ok () next →
        property (record :: past) (format.advance next behind))
    (stopped : ∀ past model fault, property past model → property past (format.stop model fault)) :
    property history reader.model := by
  have settled {past : List Record} {model later : Model}
      (known : property past model)
      (same : later = model ∨ ∃ fault, later = format.stop model fault) : property past later := by
    rcases same with rfl | ⟨fault, rfl⟩
    · exact known
    · exact stopped _ _ _ known
  induction reached with
  | opened answered =>
      obtain ⟨header, same⟩ := model_of_openBuffer answered
      exact same ▸ atStart header
  | arrived before arrival inductionHypothesis => exact inductionHypothesis
  | decoded before answered taken inductionHypothesis =>
      obtain ⟨applied, behind, changed, same⟩ := taken.applied
      exact same ▸ step _ _ _ _ _ _ inductionHypothesis changed
  | answered before answered other inductionHypothesis =>
      exact settled inductionHypothesis (model_of_next ledger answered other)
  | finished before inductionHypothesis => exact settled inductionHypothesis (model_finish _)

/-! ## Histories of whole logs -/

/-- Bytes which are records one behind the other, with the model behind them. -/
inductive Written (format : LogFormat Marker Record Model) (dialect : Dialect Marker) :
    Model → Nat → Bytes → List Record → Model → Prop
  | none
      {model : Model}
      {offset : Nat} :
      Written format dialect model offset [] [] model
  | more
      {model next last : Model}
      {offset used : Nat}
      {marker : UInt8}
      {payload : Bytes}
      {meaning : Marker}
      {record : Record}
      {records : List Record}
      (incomplete : ¬ format.isComplete model)
      (found : dialect.markers.lookup marker = .ok meaning)
      (read : (format.payload dialect.header model meaning).run (offset + 1) payload =
        .complete record used)
      (applied : (format.apply (offset + 1) record).run model = .ok () next)
      (rest : Written format dialect (format.advance next (offset + 1 + used))
        (offset + (1 + used)) (payload.drop used) records last) :
      Written format dialect model offset (marker :: payload) (record :: records) last

/-- A record which was taken is what the bytes in front of the reader say. -/
theorem Takes.run_eq
    {reader later : LogReader format}
    {marker : UInt8}
    {offset : Nat}
    {record : Record}
    (taken : reader.Takes marker offset record later)
    (uncompressed : reader.buffer.Uncompressed) :
    ∃ payload meaning used,
      reader.buffer.ahead = marker :: payload ∧
      reader.markers.lookup marker = .ok meaning ∧
      (format.payload reader.header reader.model meaning).run (reader.buffer.offset + 1) payload =
        .complete record used := by
  induction taken with
  | @here reader buffer marker payload meaning record used model unread found read applied =>
      obtain ⟨outcome, grown, answered, reads⟩ :=
        Stream.Buffer.reads_of_readFrom uncompressed (by rw [unread]; simp)
          (.start (format.payload reader.header reader.model meaning) (reader.buffer.offset + 1)
            (reader.buffer.unread.drop 1))
      cases answered.symm.trans read
      obtain ⟨content, grows⟩ := reads.grows
      have known := reads.outcome_eq
      rw [grows.unread_eq, unread, List.cons_append, List.drop_one, List.tail_cons] at known
      refine ⟨payload ++ content ++ buffer.source.content, meaning, used, ?_, found, ?_⟩
      · rw [← grows.ahead_eq, Stream.Buffer.ahead, grows.unread_eq, unread]
        rfl
      · rw [Reading.run_append (by rw [known]; simp), known]
  | filled nothing grown taken inductionHypothesis =>
      obtain ⟨content, grows⟩ := Stream.Buffer.grows_of_fill_true uncompressed grown
      obtain ⟨payload, meaning, used, ahead, found, read⟩ :=
        inductionHypothesis grows.uncompressed
      rw [grows.offset_eq] at read
      exact ⟨payload, meaning, used, grows.ahead_eq.symm.trans ahead, found, read⟩

/-- A reader in front of a good record decodes it. -/
theorem Reached.decode
    {source : Stream.Source}
    {chunk : Nat}
    {history : List Record}
    {reader : LogReader format}
    (reached : Reached source chunk history reader)
    {dialect : Dialect Marker}
    {model next : Model}
    {offset used : Nat}
    {marker : UInt8}
    {payload : Bytes}
    {meaning : Marker}
    {record : Record}
    (stands : reader.Stands dialect model offset (marker :: payload))
    (incomplete : ¬ format.isComplete model)
    (found : dialect.markers.lookup marker = .ok meaning)
    (read : (format.payload dialect.header model meaning).run (offset + 1) payload =
      .complete record used)
    (applied : (format.apply (offset + 1) record).run model = .ok () next) :
    ∃ later : LogReader format, Reached source chunk (record :: history) later ∧
      later.Stands dialect (format.advance next (offset + 1 + used)) (offset + (1 + used))
        (payload.drop used) := by
  have judged : format.judge dialect model offset (marker :: payload) =
      .decoded marker (1 + used) (format.advance next (offset + 1 + used)) := by
    rw [LogFormat.judge]
    simp only [found, read, LogFormat.judgePayload, applied]
  obtain ⟨later, answered, standsLater⟩ := stands.next_of_decoded incomplete judged
  obtain ⟨taken, takes⟩ := takes_of_next answered
  -- the record which was taken is the one which the bytes say
  obtain ⟨behind, sort, size, same, known, readAgain⟩ := takes.run_eq stands.streams.uncompressed
  obtain ⟨_, _, rfl, rfl, rfl, ahead⟩ := stands
  cases ahead.symm.trans same
  cases found.symm.trans known
  cases read.symm.trans readAgain
  rw [Nat.add_comm 1 used, List.drop_succ_cons, Nat.add_comm used 1] at standsLater
  exact ⟨later, .decoded reached answered takes, standsLater⟩

/-- A reader in front of records which are written one behind the other decodes
all of them. -/
theorem Reached.decodeAll
    {source : Stream.Source}
    {chunk : Nat}
    {history : List Record}
    {reader : LogReader format}
    (reached : Reached source chunk history reader)
    {dialect : Dialect Marker}
    {model last : Model}
    {offset : Nat}
    {bytes : Bytes}
    {records : List Record}
    (stands : reader.Stands dialect model offset bytes)
    (written : Written format dialect model offset bytes records last) :
    ∃ later : LogReader format,
      Reached source chunk (records.reverse ++ history) later ∧ later.model = last := by
  induction written generalizing reader history with
  | none => exact ⟨reader, reached, stands.model_eq⟩
  | more incomplete found read applied rest inductionHypothesis =>
      obtain ⟨later, reachedLater, standsLater⟩ :=
        reached.decode stands incomplete found read applied
      obtain ⟨final, reachedFinal, modelFinal⟩ := inductionHypothesis reachedLater standsLater
      refine ⟨final, ?_, modelFinal⟩
      rw [List.reverse_cons, List.append_assoc]
      exact reachedFinal

/-- A log which is at hand as a whole and consists of a header and records is
decoded to these records. -/
theorem exists_reached_of_written
    {bytes : Bytes}
    {header : Header}
    {markers : MarkerTable Marker}
    {size : Nat}
    {records : List Record}
    {last : Model}
    (plain : ¬ Stream.Zstd.magic <+: bytes)
    (parsed : Header.parse bytes format.flag = .ok (some (header, size)))
    (supported : format.markers? header.version = some markers)
    (written : Written format { header, markers } (format.start header) size (bytes.drop size)
      records last)
    (chunk : Nat) :
    ∃ reader : LogReader format,
      Reached (.ofBytes bytes) chunk records.reverse reader ∧ reader.model = last := by
  obtain ⟨reader, answered, opened, prompt⟩ := opened_ofBytes plain parsed supported chunk
  obtain ⟨later, reached, same⟩ :=
    (Reached.opened answered).decodeAll (opened.stands prompt) written
  rw [List.append_nil] at reached
  exact ⟨later, reached, same⟩

end LogReader
end RuntimeLog
