import RuntimeLog.Proofs.Forest.CodeHistory
import RuntimeLog.Proofs.LogReader.Calls
import RuntimeLog.Proofs.LogReader.Headers
import RuntimeLog.Stream.Zstd.Decoder

/-!
# Tilings

The records which a reader decodes lie one behind the other, from the end of the
header on, whatever is called in which order.  All places which are kept, in the
reader, in its model and in a fault, are the end of the last one of them.
-/

namespace RuntimeLog

/-- A fill leaves the place of the unread bytes alone. -/
theorem Stream.Buffer.offset_of_fill
    [Stream.Decompressor]
    {buffer later : Stream.Buffer}
    {answer : Except String Bool}
    (filled : buffer.fill = (answer, later)) :
    later.offset = buffer.offset := by
  have offset_of_absorb (buffer : Stream.Buffer) (content : Bytes) :
      (buffer.absorb content).2.offset = buffer.offset := by
    unfold absorb absorbUndecided
    dsimp only
    split
    · rfl
    · split
      · rfl
      · split
        · rfl
        · split <;> rfl
    · split <;> rfl
  fun_induction fill buffer with
  | case1 buffer reason source collected =>
      cases filled
      rfl
  | case2 buffer source collected =>
      cases filled
      rfl
  | case3 buffer byte content source collected middle absorbed inductionHypothesis =>
      have kept := offset_of_absorb { buffer with source } (byte :: content)
      rw [absorbed] at kept
      exact (inductionHypothesis filled).trans kept
  | case4 buffer byte content source collected answer middle other absorbed =>
      cases filled
      have kept := offset_of_absorb { buffer with source } (byte :: content)
      rw [absorbed] at kept
      exact kept

namespace LogFormat

variable {Marker Record Model : Type} {format : LogFormat Marker Record Model}
variable {dialect : Dialect Marker} {model last next : Model} {bytes : Bytes}
variable {answers : List Status} {offset total used : Nat} {marker : UInt8}

/-- One more good record lies where the last one ends. -/
theorem Records.concat
    (records : Records format dialect model offset bytes answers total last)
    (incomplete : ¬ format.isComplete last)
    (judged : format.judge dialect last (offset + total) (bytes.drop total) =
      .decoded marker used next) :
    Records format dialect model offset bytes (answers ++ [.decoded marker (offset + total)])
      (total + used) next := by
  induction records with
  | none =>
      rw [Nat.add_zero, List.drop_zero] at judged
      rw [Nat.add_zero, Nat.zero_add]
      exact .more incomplete judged .none
  | @more model middle last offset size further bytes first answers begun earlier rest
      inductionHypothesis =>
      rw [Nat.add_assoc size, ← Nat.add_assoc offset, List.cons_append]
      refine .more begun earlier (inductionHypothesis incomplete ?_)
      rw [List.drop_drop, Nat.add_assoc]
      exact judged

/-- Good records leave a log without a fault. -/
theorem Ledger.fault_of_records
    (ledger : format.Ledger)
    (records : Records format dialect model offset bytes answers total last)
    (sound : ledger.fault? model = none) :
    ledger.fault? last = none := by
  refine records.preserves (ledger.fault? · = none) sound ?_
  intro model next record offset behind applied before
  rw [ledger.fault_advance, ledger.fault_of_ok applied, before]

/-- The model was told last where the good records end. -/
theorem Ledger.decodedUntil_of_records
    (ledger : format.Ledger)
    (records : Records format dialect model offset bytes answers total last)
    (fresh : ledger.decodedUntil model = 0) :
    ledger.decodedUntil last = if answers = [] then 0 else offset + total := by
  by_cases nothing : answers = []
  · rw [if_pos nothing]
    cases records with
    | none => exact fresh
    | more => cases nothing
  · rw [if_neg nothing]
    obtain ⟨applied, rfl⟩ := records.exists_advance nothing
    exact ledger.decodedUntil_advance _ _

end LogFormat

namespace LogReader

variable [Stream.Decompressor]
variable {Marker Record Model : Type} {format : LogFormat Marker Record Model}
variable {opened reader later : LogReader format} {answer : Except String Status}
variable {decoded : List Status} {body : Bytes} {total : Nat} {last : Model}

/-! ## Opening -/

/-- A reader opens behind the header, all of which was there. -/
theorem exists_held_of_openBuffer
    {buffer : Stream.Buffer}
    (answered : openBuffer format buffer = .ok reader) :
    ∃ held : Stream.Buffer, held.offset = buffer.offset ∧
      reader.header.encode <+: held.unread ∧
      reader.buffer = held.consume reader.header.encode.length ∧
      reader.model = format.start reader.header ∧
      reader.phase = .streaming := by
  fun_induction openBuffer format buffer with
  | case2 buffer header size parsed markers supported =>
      cases answered
      have written := Header.take_of_parse parsed
      have within := Header.size_le_of_parse parsed
      have length : header.encode.length = size := by
        rw [← written, List.length_take_of_le within]
      exact ⟨buffer, rfl, ⟨buffer.unread.drop size, by rw [← written, List.take_append_drop]⟩,
        by rw [length], rfl, rfl⟩
  | case5 buffer parsed later filled inductionHypothesis =>
      obtain ⟨held, place, rest⟩ := inductionHypothesis answered
      exact ⟨held, place.trans (Stream.Buffer.offset_of_fill filled), rest⟩
  | case1 => cases answered
  | case3 => cases answered
  | case4 => cases answered
  | case6 => cases answered
  | case7 => cases answered
  | case8 => cases answered

/-! ## Places -/

/-- Where a reader stands which decoded some records since it was opened: behind them,
in front of what it received but did not consume.  Unless there was a fault, its model
is the one behind the records. -/
structure Tiles
    (opened : LogReader format)
    (decoded : List Status)
    (body : Bytes)
    (total : Nat)
    (last : Model)
    (reader : LogReader format) : Prop where
  records : LogFormat.Records format opened.dialect opened.model opened.nextOffset body decoded
    total last
  place : reader.nextOffset = opened.nextOffset + total
  unread_eq : reader.buffer.unread = body.drop total
  dialect_eq : reader.dialect = opened.dialect
  decided : reader.buffer.encoding ≠ .undecided
  model_eq : reader.phase ≠ .faulted → reader.model = last
  stopped : reader.phase = .faulted →
    reader.buffer.unread ≠ [] ∧
      ∃ fault, fault.offset = reader.nextOffset ∧ reader.model = format.stop last fault

/-- A reader which received more stands where it stood. -/
theorem Tiles.receives
    {buffer : Stream.Buffer}
    {content lost : Bytes}
    (tiles : Tiles opened decoded body total last reader)
    (streaming : reader.phase = .streaming)
    (receives : reader.buffer.Receives content lost buffer) :
    Tiles opened decoded (body ++ content) total last (reader.withBuffer buffer) where
  records := tiles.records.append content
  place := receives.offset_eq.trans tiles.place
  unread_eq := by
    rw [List.drop_append_of_le_length tiles.records.total_le, ← tiles.unread_eq]
    exact receives.unread_eq
  dialect_eq := tiles.dialect_eq
  decided := receives.decided
  model_eq := tiles.model_eq
  stopped faulted := by cases streaming.symm.trans faulted

section Verdicts

variable {buffer : Stream.Buffer} {content : Bytes} {marker : UInt8} {model : Model}

/-- A reader in front of a record with a fault stops there, with unread bytes. -/
theorem Tiles.refused
    {error : DecodeError}
    (ledger : format.Ledger)
    (tiles : Tiles opened decoded body total last reader)
    (streaming : reader.phase = .streaming)
    (receives : reader.buffer.Receives content [] buffer)
    (judged : format.judge reader.dialect reader.model buffer.offset buffer.unread =
      .refused marker error model) :
    Tiles opened decoded (body ++ content) total last
      (stopAt { reader with buffer, model } marker error) := by
  have behind := tiles.receives streaming receives
  have model_eq : reader.model = last := tiles.model_eq (by simp [streaming])
  have held : buffer.unread ≠ [] := by
    intro nothing
    rw [nothing] at judged
    cases judged
  obtain rfl : model = last := (ledger.eq_of_refused judged).trans model_eq
  exact
    { records := behind.records
      place := behind.place
      unread_eq := behind.unread_eq
      dialect_eq := tiles.dialect_eq
      decided := receives.decided
      model_eq := fun unfaulted => absurd rfl unfaulted
      stopped := fun _ => ⟨held, _, rfl, rfl⟩ }

/-- A reader in front of a good record moves behind it. -/
theorem Tiles.past
    {used : Nat}
    (tiles : Tiles opened decoded body total last reader)
    (streaming : reader.phase = .streaming)
    (incomplete : ¬ format.isComplete reader.model)
    (receives : reader.buffer.Receives content [] buffer)
    (judged : format.judge reader.dialect reader.model buffer.offset buffer.unread =
      .decoded marker used model) :
    Tiles opened (decoded ++ [.decoded marker buffer.offset]) (body ++ content) (total + used)
      model (reader.past buffer used model) := by
  have behind := tiles.receives streaming receives
  have model_eq : reader.model = last := tiles.model_eq (by simp [streaming])
  have place : buffer.offset = opened.nextOffset + total := behind.place
  have unread_eq : buffer.unread = (body ++ content).drop total := behind.unread_eq
  rw [tiles.dialect_eq, model_eq, place, unread_eq] at judged
  rw [place]
  refine
    { records := behind.records.concat (model_eq ▸ incomplete) judged
      place := ?_
      unread_eq := ?_
      dialect_eq := tiles.dialect_eq
      decided := receives.decided
      model_eq := fun _ => rfl
      stopped := fun faulted => ?_ }
  · change buffer.offset + used = _
    rw [place, Nat.add_assoc]
  · change buffer.unread.drop used = _
    rw [← List.drop_drop, unread_eq]
  · cases streaming.symm.trans faulted

end Verdicts

/-- A request moves a reader behind the record which it decodes, if any. -/
theorem Tiles.next
    (ledger : format.Ledger)
    (tiles : Tiles opened decoded body total last reader) :
    ∃ body total last,
      Tiles opened (decoded ++ (reader.decodes? .request).toList) body total last
        reader.next.2 := by
  cases answered : reader.next with
  | mk answer later =>
      have decodes : reader.decodes? .request = decodedStatus? answer := by
        rw [decodes?, answer?, answered]
        rfl
      have undecoded {answer : Except String Status} (nothing : decodedStatus? answer = none) :
          decoded ++ (decodedStatus? answer).toList = decoded := by
        rw [nothing, Option.toList_none, List.append_nil]
      rw [decodes]
      rcases next_cases tiles.decided answered with
        ⟨streaming, incomplete, replies⟩ | ⟨streaming, _, rfl, rfl⟩ | ⟨ended, rfl, _⟩
      · cases replies with
        | failed receives judged =>
            rw [undecoded rfl]
            exact ⟨_, _, _, tiles.receives streaming receives⟩
        | pending receives judged =>
            rw [undecoded rfl]
            exact ⟨_, _, _, tiles.receives streaming receives⟩
        | faulted receives judged =>
            rw [undecoded rfl]
            exact ⟨_, _, _, tiles.refused ledger streaming receives judged⟩
        | decoded receives judged =>
            exact ⟨_, _, _, tiles.past streaming incomplete receives judged⟩
      · have model_eq : reader.model = last := tiles.model_eq (by simp [streaming])
        refine ⟨body, total, last, ?_⟩
        rw [undecoded rfl]
        exact
          { tiles with
            model_eq := fun _ => model_eq
            stopped := fun faulted => by cases faulted }
      · have settled := (after_of_ended ended []).1
        rw [after_nil, answered] at settled
        dsimp only at settled ⊢
        refine ⟨body, total, last, ?_⟩
        rw [settled, undecoded (decodedStatus?_endStatus _)]
        exact tiles

/-- The declaration that nothing more will arrive leaves a reader where it stands. -/
theorem Tiles.finish (tiles : Tiles opened decoded body total last reader) :
    Tiles opened decoded body total last reader.finish := by
  rcases finish_cases reader with same | ⟨streaming, _, same⟩ | ⟨marker, rest, cut, same⟩
  · rwa [same]
  · have model_eq : reader.model = last := tiles.model_eq (by simp [streaming])
    rw [same]
    exact
      { tiles with
        model_eq := fun _ => model_eq
        stopped := fun faulted => by cases faulted }
  · have model_eq : reader.model = last := tiles.model_eq (by simp [cut.streaming])
    have held : reader.buffer.unread ≠ [] := by simp [cut.unread]
    rw [same]
    exact
      { tiles with
        model_eq := fun unfaulted => absurd rfl unfaulted
        stopped := fun _ => ⟨held, _, rfl, by rw [stopAt, model_eq]⟩ }

/-- Whatever is called, a reader stands behind the records which it decoded. -/
theorem Tiles.afterCall
    (ledger : format.Ledger)
    (tiles : Tiles opened decoded body total last reader)
    (call : Call) :
    ∃ body total last,
      Tiles opened (decoded ++ (reader.decodes? call).toList) body total last
        (reader.afterCall call) := by
  cases call with
  | request => exact tiles.next ledger
  | declaration => 
      refine ⟨body, total, last, ?_⟩
      rw [decodes?, answer?, Option.bind_none, Option.toList_none, List.append_nil]
      exact tiles.finish
  | arrival arrival => 
      refine ⟨body, total, last, ?_⟩
      rw [decodes?, answer?, Option.bind_none, Option.toList_none, List.append_nil]
      exact { tiles with }

/-- Whatever is called in which order, a reader stands behind the records which it
decoded. -/
theorem Tiles.after
    (ledger : format.Ledger)
    (tiles : Tiles opened decoded body total last reader)
    (calls : List Call) :
    ∃ body total last,
      Tiles opened (decoded ++ reader.decodedBy calls) body total last (reader.after calls) := by
  induction calls generalizing decoded body total last reader with
  | nil => 
      refine ⟨body, total, last, ?_⟩
      rw [decodedBy, List.append_nil]
      exact tiles
  | cons call calls inductionHypothesis => 
      obtain ⟨body, total, last, next⟩ := tiles.afterCall ledger call
      rw [decodedBy, ← List.append_assoc]
      exact inductionHypothesis next

/-- An opened reader stands behind no records. -/
theorem tiles_of_open
    {source : Stream.Source}
    {chunk : Nat}
    (answered : open? format source chunk = .ok opened) :
    Tiles opened [] opened.buffer.unread 0 opened.model opened := by
  obtain ⟨_, _, _, _, _, streaming⟩ := exists_held_of_openBuffer answered
  exact
    { records := .none
      place := rfl
      unread_eq := rfl
      dialect_eq := rfl
      decided := decided_of_open answered
      model_eq := fun _ => rfl
      stopped := fun faulted => by cases streaming.symm.trans faulted }

/-- A reader without a fault so far has a sound model. -/
theorem Tiles.sound
    (ledger : format.Ledger)
    (tiles : Tiles opened decoded body total last reader)
    (fresh : ledger.fault? opened.model = none)
    (unfaulted : reader.phase ≠ .faulted) :
    ledger.fault? reader.model = none := by
  rw [tiles.model_eq unfaulted]
  exact ledger.fault_of_records tiles.records fresh

/-- Whatever is called, the faults which a reader handed to its model are the one which
is there. -/
theorem Tiles.recorded_after
    (ledger : format.Ledger)
    (tiles : Tiles opened decoded body total last reader)
    (fresh : ledger.fault? opened.model = none)
    (calls : List Call) :
    (reader.witnessed ledger).after calls = (reader.after calls).witnessed ledger := by
  induction calls generalizing decoded body total last reader with
  | nil => rfl
  | cons call calls inductionHypothesis =>
      obtain ⟨body, total, last, next⟩ := tiles.afterCall ledger call
      rw [after_cons, after_cons, (afterCall_witnessed (tiles.sound ledger fresh) call).1]
      exact inductionHypothesis next

/-! ## Logs -/

/-- A reader opens behind the header of its log, which was there as a whole, and without
having handed a fault to its model. -/
structure OpensBehindHeader
    (source : Stream.Source)
    (chunk : Nat)
    (opened : LogReader format) : Prop where
  held : ∃ held : Stream.Buffer, held.offset = 0 ∧
    opened.header.encode <+: held.unread ∧
    opened.buffer = held.consume opened.header.encode.length
  offset_eq : opened.nextOffset = opened.header.encode.length
  recorded : open? format.recording source chunk = .ok (opened.recorded [])

/-- From some call on, every request gets the same answer, and nothing else changes. -/
structure Settles (reader : LogReader format) (status : Status) : Prop where
  answer_eq : ∀ calls, (reader.after calls).next.1 = .ok status
  model_eq : ∀ calls, (reader.after calls).model = reader.model
  offset_eq : ∀ calls, (reader.after calls).nextOffset = reader.nextOffset

/-- How the answers of a reader tile its stream once some calls were made. -/
structure TilesStream
    (ledger : format.Ledger)
    (opened : LogReader format)
    (calls : List Call) : Prop where
  /-- The decoded records lie one behind the other, from the end of the header to the
  offset of the next record. -/
  records : ∃ body total last,
    LogFormat.Records format opened.dialect (format.start opened.header)
      opened.header.encode.length body (opened.decodedBy calls) total last ∧
    (opened.after calls).nextOffset = opened.header.encode.length + total ∧
    (opened.after calls).buffer.unread = body.drop total
  decodedUntil_eq : ledger.decodedUntil (opened.after calls).model =
    if opened.decodedBy calls = [] then 0 else (opened.after calls).nextOffset
  fault_offset : ∀ fault, ledger.fault? (opened.after calls).model = some fault →
    fault.offset = (opened.after calls).nextOffset
  /-- The faults which were handed to the model are the one which it has, if any. -/
  handed : (opened.recorded []).after calls =
    (opened.after calls).recorded (ledger.fault? (opened.after calls).model).toList
  /-- A record which is decoded next is consumed from bytes which are held. -/
  consumes : ∀ marker offset,
    (opened.after calls).next.1 = .ok (.decoded marker offset) →
      ∃ (content : Bytes) (held : Stream.Buffer) (used : Nat),
        (opened.after calls).buffer.Receives content [] held ∧
        held.offset = offset ∧
        used ≤ held.unread.length ∧
        (opened.after calls).next.2.buffer = held.consume used
  ended : (opened.after calls).next.1 = .ok .ended →
    (opened.after calls).next.2.Settles .ended
  faulted : (opened.after calls).next.1 = .ok .faulted →
    (opened.after calls).next.2.Settles .faulted
  finished : (opened.after calls).buffer.unread = [] →
    (opened.after calls).finish.Settles .ended

/-- Once decoding has ended, a reader has settled. -/
theorem settles_of_ended (ended : reader.phase ≠ .streaming) :
    reader.Settles (endStatus reader.phase) where
  answer_eq calls := (after_of_ended ended calls).1
  model_eq calls := (after_of_ended ended calls).2.1
  offset_eq calls := (after_of_ended ended calls).2.2

/-- A request which is answered by the end or by a fault settles a reader. -/
theorem settles_of_next
    {status : Status}
    (decided : reader.buffer.encoding ≠ .undecided)
    (ends : status = .ended ∨ status = .faulted)
    (answered : reader.next.1 = .ok status) :
    reader.next.2.Settles status := by
  obtain ⟨ended, rfl⟩ := ended_of_next decided (Prod.ext answered rfl) ends
  exact settles_of_ended ended

/-- A reader which holds no unread bytes settles once nothing more will arrive. -/
theorem Tiles.settles_finish
    (tiles : Tiles opened decoded body total last reader)
    (nothing : reader.buffer.unread = []) :
    reader.finish.Settles .ended := by
  cases phase : reader.phase with
  | streaming =>
      have done : reader.finish = { reader with phase := .done } := by
        simp [LogReader.finish, phase, nothing]
      rw [done]
      exact settles_of_ended (by simp)
  | done =>
      have same : reader.finish = reader := by simp [LogReader.finish, phase]
      have settles := settles_of_ended (show reader.phase ≠ .streaming by simp [phase])
      rw [phase] at settles
      rw [same]
      exact settles
  | faulted => exact absurd nothing (tiles.stopped phase).1

/-- A record is consumed from bytes which are held. -/
theorem consumes_of_next
    {marker : UInt8}
    {offset : Nat}
    (decided : reader.buffer.encoding ≠ .undecided)
    (answered : reader.next = (.ok (.decoded marker offset), later)) :
    ∃ (content : Bytes) (held : Stream.Buffer) (used : Nat),
      reader.buffer.Receives content [] held ∧
      held.offset = offset ∧
      used ≤ held.unread.length ∧
      later.buffer = held.consume used := by
  rcases next_cases decided answered with ⟨_, _, replies⟩ | ⟨_, _, other, _⟩ | ⟨ended, rfl, _⟩
  · cases replies with
    | decoded receives judged =>
        exact ⟨_, _, _, receives, rfl, (LogFormat.used_of_judge judged).2, rfl⟩
  · cases other
  · have settled := (after_of_ended ended []).1
    rw [after_nil, answered] at settled
    cases phase : later.phase <;> simp [phase, endStatus] at settled

/-- A reader of any format tiles its stream. -/
theorem tilesStream_of_open
    (ledger : format.Ledger)
    (fresh : ∀ header, ledger.decodedUntil (format.start header) = 0)
    {source : Stream.Source}
    {chunk : Nat}
    (answered : open? format source chunk = .ok opened)
    (calls : List Call) :
    TilesStream ledger opened calls := by
  obtain ⟨held, start, _, behind, model_eq, _⟩ := exists_held_of_openBuffer answered
  have offset_eq : opened.nextOffset = opened.header.encode.length := by
    rw [nextOffset, behind, Stream.Buffer.consume, start]
    exact Nat.zero_add _
  have sound : ledger.fault? opened.model = none := model_eq ▸ ledger.fault_start _
  have unwritten : ledger.decodedUntil opened.model = 0 := model_eq ▸ fresh _
  obtain ⟨body, total, last, tiles⟩ := (tiles_of_open answered).after ledger calls
  rw [List.nil_append] at tiles
  refine
    { records := ?records
      decodedUntil_eq := ?decodedUntil
      fault_offset := ?fault
      handed := ?handed
      consumes := fun marker offset decoded =>
        consumes_of_next tiles.decided (Prod.ext decoded rfl)
      ended := settles_of_next tiles.decided (Or.inl rfl)
      faulted := settles_of_next tiles.decided (Or.inr rfl)
      finished := tiles.settles_finish }
  case records =>
    refine ⟨body, total, last, ?_, ?_, tiles.unread_eq⟩
    · rw [← model_eq, ← offset_eq]
      exact tiles.records
    · rw [← offset_eq]
      exact tiles.place
  case decodedUntil =>
    have until_eq : ledger.decodedUntil (opened.after calls).model = ledger.decodedUntil last := by
      by_cases faulted : (opened.after calls).phase = .faulted
      · obtain ⟨_, fault, _, stopped⟩ := tiles.stopped faulted
        rw [stopped, ledger.decodedUntil_stop]
      · rw [tiles.model_eq faulted]
    rw [until_eq, ledger.decodedUntil_of_records tiles.records unwritten, tiles.place]
  case fault =>
    intro fault found
    by_cases faulted : (opened.after calls).phase = .faulted
    · obtain ⟨_, other, place, stopped⟩ := tiles.stopped faulted
      rw [stopped, ledger.fault_stop, Option.some.injEq] at found
      rw [← found, place]
    · rw [tiles.sound ledger sound faulted] at found
      cases found
  case handed =>
    have witnessed : opened.witnessed ledger = opened.recorded [] := by
      rw [LogReader.witnessed, sound, Option.toList_none]
    rw [← witnessed, (tiles_of_open answered).recorded_after ledger sound]
    rfl

theorem opensBehindHeader_of_open
    {source : Stream.Source}
    {chunk : Nat}
    (answered : open? format source chunk = .ok opened) :
    OpensBehindHeader source chunk opened := by
  obtain ⟨held, start, written, behind, _, _⟩ := exists_held_of_openBuffer answered
  refine ⟨⟨held, start, written, behind⟩, ?_, ?_⟩
  · rw [nextOffset, behind, Stream.Buffer.consume, start]
    exact Nat.zero_add _
  · rw [open?, openBuffer_recording, ← open?, answered]
    rfl

end LogReader

/-- The time of a trace log is the number of its good records. -/
theorem Jitlog.time_of_records
    {dialect : Dialect Jitlog.Marker}
    {forest last : Forest}
    {offset total : Nat}
    {bytes : Bytes}
    {answers : List Status}
    (records : LogFormat.Records Jitlog.format dialect forest offset bytes answers total last) :
    last.time = forest.time + answers.length := by
  induction records with
  | none => rfl
  | more incomplete judged rest inductionHypothesis =>
      obtain ⟨record, applied, made, rfl⟩ := LogFormat.applied_of_judge judged
      rw [inductionHypothesis, Forest.time_of_apply made, List.length_cons]
      omega

namespace LogReader

/-- The time of a trace log is the number of the records which were decoded. -/
theorem time_after
    [Stream.Decompressor]
    {source : Stream.Source}
    {chunk : Nat}
    {opened : LogReader Jitlog.format}
    (answered : open? Jitlog.format source chunk = .ok opened)
    (calls : List Call) :
    (opened.after calls).model.time = (opened.decodedBy calls).length := by
  obtain ⟨_, _, _, _, model_eq, _⟩ := exists_held_of_openBuffer answered
  obtain ⟨body, total, last, tiles⟩ := (tiles_of_open answered).after Jitlog.ledger calls
  rw [List.nil_append] at tiles
  have time_eq : (opened.after calls).model.time = last.time := by
    by_cases faulted : (opened.after calls).phase = .faulted
    · obtain ⟨_, fault, _, stopped⟩ := tiles.stopped faulted
      rw [stopped]
      rfl
    · rw [tiles.model_eq faulted]
  rw [time_eq, Jitlog.time_of_records tiles.records, model_eq]
  exact Nat.zero_add _

/-- Readers of either format tile their streams, whatever is called in which order and
whatever arrives in between: the records which they decode lie one behind the other, from
the end of the header on, and what the reader, the model and a fault say about places is
the end of the last one.  The time of a trace log is their number.  Once the end or a
fault was answered, or nothing more will arrive and no bytes are unread, every request
gets the same answer and nothing else changes, and a model is handed one fault at most. -/
theorem tilesStream [Stream.Decompressor] (source : Stream.Source) (chunk : Nat) :
    (∀ reader, open? Jitlog.format source chunk = .ok reader →
      OpensBehindHeader source chunk reader ∧
      ∀ calls, TilesStream Jitlog.ledger reader calls ∧
        (reader.after calls).model.time = (reader.decodedBy calls).length) ∧
    ∀ reader, open? Profile.format source chunk = .ok reader →
      OpensBehindHeader source chunk reader ∧
      ∀ calls, TilesStream Profile.ledger reader calls := by
  refine ⟨fun reader answered => ⟨opensBehindHeader_of_open answered, fun calls => ?_⟩,
    fun reader answered => ⟨opensBehindHeader_of_open answered, fun calls => ?_⟩⟩
  · exact ⟨tilesStream_of_open Jitlog.ledger (fun _ => rfl) answered calls,
      time_after answered calls⟩
  · exact tilesStream_of_open Profile.ledger (fun _ => rfl) answered calls

attribute [local instance] Stream.Zstd.decompressor

set_option maxRecDepth 4000 in
/-- The reader of a log of two abort records, of which one was asked for before the end
was declared, and the reader of a closed profile. -/
theorem tilesStream_of_small_logs :
    (∃ reader, open? Jitlog.format (.ofBytes abortedTraces) 32 = .ok reader ∧
      reader.decodedBy [.request, .declaration] = [.decoded 0x1f 8] ∧
      TilesStream Jitlog.ledger reader [.request, .declaration] ∧
      (reader.after [.request, .declaration]).model.time = 1 ∧
      (reader.after [.request, .declaration]).nextOffset = 17) ∧
    ∃ reader, open? Profile.format (.ofBytes closedProfile) 16 = .ok reader ∧
      TilesStream Profile.ledger reader [.request, .request] ∧
      (reader.after [.request]).next.1 = .ok .ended := by
  constructor
  · have fits : abortedTraces.length ≤ max Stream.Buffer.leastChunk 32 := by decide
    have parsed : Header.parse abortedTraces Jitlog.format.flag =
        .ok (some (abortedHeader, 8)) := rfl
    obtain ⟨markers, supported, first, _⟩ := judge_abortedTraces
    have opened := open_ofBytes_of_fits (by decide) fits parsed supported
    have decoded := next_of_decoded
      (holding Jitlog.format { header := abortedHeader, markers } 8 (abortedTraces.drop 8) 32)
      rfl Bool.false_ne_true first
    obtain ⟨_, tiled⟩ := (tilesStream _ _).1 _ opened
    refine ⟨_, opened, ?_, (tiled _).1, ?_, ?_⟩
    · simp only [decodedBy, decodes?, answer?, decoded]
      rfl
    · simp only [after_cons, after_nil, afterCall, decoded]
      rfl
    · simp only [after_cons, after_nil, afterCall, decoded]
      rfl
  · have fits : closedProfile.length ≤ max Stream.Buffer.leastChunk 16 := by decide
    have parsed : Header.parse closedProfile Profile.format.flag =
        .ok (some (closedHeader, 8)) := rfl
    obtain ⟨markers, supported, closed⟩ := judge_closedProfile
    have opened := open_ofBytes_of_fits (by decide) fits parsed supported
    have decoded := next_of_decoded
      (holding Profile.format { header := closedHeader, markers } 8 (closedProfile.drop 8) 16)
      rfl Bool.false_ne_true closed
    obtain ⟨_, tiled⟩ := (tilesStream _ _).2 _ opened
    refine ⟨_, opened, tiled _, ?_⟩
    simp only [after_cons, after_nil, afterCall, decoded]
    rfl

end LogReader
end RuntimeLog
