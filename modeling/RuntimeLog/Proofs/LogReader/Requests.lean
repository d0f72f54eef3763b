import RuntimeLog.Proofs.LogReader.History

/-!
# Requests for written records

A reader in front of records which were written one behind the other answers
requests for them as if each record was applied to the model in turn, whatever
follows.  The first record which cannot be applied ends decoding at its marker.
Decoding all of a log makes the same requests.
-/

namespace RuntimeLog

/-- How the records of a format are written. -/
structure Script (Record : Type) where
  marker : Record → UInt8
  /-- The bytes behind the marker. -/
  payload : Record → Bytes

namespace Script

variable {Record : Type} {script : Script Record}

/-- The bytes of a record. -/
def encode (script : Script Record) (record : Record) : Bytes :=
  script.marker record :: script.payload record

/-- The bytes of records one behind the other. -/
def encodeAll (script : Script Record) (records : List Record) : Bytes :=
  records.flatMap script.encode

@[simp] theorem encodeAll_nil : script.encodeAll [] = [] := rfl

@[simp] theorem encodeAll_cons (record : Record) (records : List Record) :
    script.encodeAll (record :: records) = script.encode record ++ script.encodeAll records := rfl

/-- The bytes of records behind others. -/
theorem encodeAll_append (first second : List Record) :
    script.encodeAll (first ++ second) = script.encodeAll first ++ script.encodeAll second :=
  List.flatMap_append

end Script

/-- What becomes of records which are applied one after the other. -/
structure Replay (Model : Type) where
  /-- The answers to requests for the records. -/
  answers : List Status
  model : Model
  /-- The offset behind the last record which could be applied. -/
  offset : Nat
  phase : Phase

namespace LogFormat

variable {Marker Record Model : Type}

/-- Apply records which are written from an offset on.  The first one which fails
is a fault at its marker. -/
def replay
    (format : LogFormat Marker Record Model)
    (script : Script Record)
    (model : Model)
    (offset : Nat) : List Record → Replay Model
  | [] => { answers := [], model, offset, phase := .streaming }
  | record :: records =>
      match (format.apply (offset + 1) record).run model with
      | .ok () next =>
          let behind := offset + (script.encode record).length
          let rest := format.replay script (format.advance next behind) behind records
          { rest with answers := .decoded (script.marker record) offset :: rest.answers }
      | .error error left =>
          { answers := List.replicate (records.length + 1) .faulted
            model := format.stop left { offset, marker := some (script.marker record), error }
            offset
            phase := .faulted }

/-- The verdict on a record by what it does to the model. -/
def verdictOn
    (format : LogFormat Marker Record Model)
    (script : Script Record)
    (model : Model)
    (offset : Nat)
    (record : Record) : Verdict Model :=
  match (format.apply (offset + 1) record).run model with
  | .error error left => .refused (script.marker record) error left
  | .ok () next =>
      .decoded (script.marker record) (script.encode record).length
        (format.advance next (offset + (script.encode record).length))

/-- Records which are read back from their bytes, whatever follows them: there, the
verdict is that on the record. -/
def Legible
    (format : LogFormat Marker Record Model)
    (script : Script Record)
    (dialect : Dialect Marker) : Model → Nat → List Record → Prop
  | _, _, [] => True
  | model, offset, record :: records =>
      ¬ format.isComplete model ∧
      (∀ rest, format.judge dialect model offset (script.encode record ++ rest) =
        format.verdictOn script model offset record) ∧
      ∀ next, (format.apply (offset + 1) record).run model = .ok () next →
        Legible format script dialect
          (format.advance next (offset + (script.encode record).length))
          (offset + (script.encode record).length) records

variable {format : LogFormat Marker Record Model} {script : Script Record}
variable {dialect : Dialect Marker} {model : Model} {offset : Nat} {records : List Record}

/-- Behind a record which can be applied, the others are applied. -/
theorem replay_of_ok
    {record : Record}
    {next : Model}
    (applied : (format.apply (offset + 1) record).run model = .ok () next) :
    format.replay script model offset (record :: records) =
      { format.replay script (format.advance next (offset + (script.encode record).length))
          (offset + (script.encode record).length) records with
        answers := .decoded (script.marker record) offset ::
          (format.replay script (format.advance next (offset + (script.encode record).length))
            (offset + (script.encode record).length) records).answers } := by
  rw [replay, applied]

/-- A record which cannot be applied ends everything. -/
theorem replay_of_error
    {record : Record}
    {error : DecodeError}
    {left : Model}
    (failed : (format.apply (offset + 1) record).run model = .error error left) :
    format.replay script model offset (record :: records) =
      { answers := List.replicate (records.length + 1) .faulted
        model := format.stop left { offset, marker := some (script.marker record), error }
        offset
        phase := .faulted } := by
  rw [replay, failed]

theorem verdictOn_of_ok
    {record : Record}
    {next : Model}
    (applied : (format.apply (offset + 1) record).run model = .ok () next) :
    format.verdictOn script model offset record =
      .decoded (script.marker record) (script.encode record).length
        (format.advance next (offset + (script.encode record).length)) := by
  rw [verdictOn, applied]

theorem verdictOn_of_error
    {record : Record}
    {error : DecodeError}
    {left : Model}
    (failed : (format.apply (offset + 1) record).run model = .error error left) :
    format.verdictOn script model offset record =
      .refused (script.marker record) error left := by
  rw [verdictOn, failed]

/-- Where the payload of a record is read back, the verdict is that on the record. -/
theorem judge_of_complete
    {record : Record}
    {meaning : Marker}
    {rest : Bytes}
    (found : dialect.markers.lookup (script.marker record) = .ok meaning)
    (read : (format.payload dialect.header model meaning).run (offset + 1)
      (script.payload record ++ rest) = .complete record (script.payload record).length) :
    format.judge dialect model offset (script.encode record ++ rest) =
      format.verdictOn script model offset record := by
  have size : (script.encode record).length = 1 + (script.payload record).length :=
    Nat.add_comm _ 1
  have judged : format.judge dialect model offset (script.encode record ++ rest) =
      format.judgePayload model offset (script.marker record)
        (.complete record (script.payload record).length) := by
    change format.judge _ _ _ (script.marker record :: (script.payload record ++ rest)) = _
    rw [judge, found]
    dsimp only
    rw [read]
  rw [judged]
  unfold judgePayload
  dsimp only
  cases applied : (format.apply (offset + 1) record).run model with
  | ok value next =>
      rw [verdictOn_of_ok applied, size, ← Nat.add_assoc]
  | error error left => exact (verdictOn_of_error applied).symm

/-- Records are only left because of a fault. -/
theorem phase_replay :
    (format.replay script model offset records).phase = .streaming ∧
        (format.replay script model offset records).offset =
          offset + (script.encodeAll records).length ∨
      (format.replay script model offset records).phase = .faulted := by
  induction records generalizing model offset with
  | nil => exact Or.inl ⟨rfl, rfl⟩
  | cons record records inductionHypothesis =>
      cases applied : (format.apply (offset + 1) record).run model with
      | ok value next =>
          rw [replay_of_ok applied, Script.encodeAll_cons, List.length_append, ← Nat.add_assoc]
          exact inductionHypothesis
      | error error left =>
          rw [replay_of_error applied]
          exact Or.inr rfl

/-- A log which starts with legible records decodes to what becomes of them, and
goes on behind them unless one of them has a fault. -/
theorem decodeFrom_of_legible
    (legible : format.Legible script dialect model offset records)
    (tail : Bytes) :
    (format.decodeFrom dialect model offset (script.encodeAll records ++ tail)).2 =
      match (format.replay script model offset records).phase with
      | .faulted => (format.replay script model offset records).model
      | _ =>
          (format.decodeFrom dialect (format.replay script model offset records).model
            (format.replay script model offset records).offset tail).2 := by
  induction records generalizing model offset with
  | nil => rfl
  | cons record records inductionHypothesis =>
      obtain ⟨incomplete, judged, behind⟩ := legible
      rw [Script.encodeAll_cons, List.append_assoc]
      cases applied : (format.apply (offset + 1) record).run model with
      | ok value next =>
          have verdict :=
            (judged (script.encodeAll records ++ tail)).trans (verdictOn_of_ok applied)
          rw [decodeFrom_of_decoded incomplete verdict, List.drop_left, replay_of_ok applied]
          exact inductionHypothesis (behind next applied)
      | error error left =>
          have verdict :=
            (judged (script.encodeAll records ++ tail)).trans (verdictOn_of_error applied)
          rw [decodeFrom_of_refused incomplete verdict, replay_of_error applied]

end LogFormat

namespace LogReader

variable [Stream.Decompressor]
variable {Marker Record Model : Type} {format : LogFormat Marker Record Model}

/-- The answers to some requests for a record, and the reader behind them. -/
def requests (reader : LogReader format) : Nat → List (Except String Status) × LogReader format
  | 0 => ([], reader)
  | count + 1 =>
      let rest := reader.next.2.requests count
      (reader.next.1 :: rest.1, rest.2)

/-- A reader which answers some requests as if records were replayed. -/
structure Replays (reader : LogReader format) (count : Nat) (replay : Replay Model) : Prop where
  answers_eq : (reader.requests count).1 = replay.answers.map .ok
  model_eq : (reader.requests count).2.model = replay.model
  offset_eq : (reader.requests count).2.nextOffset = replay.offset
  phase_eq : (reader.requests count).2.phase = replay.phase

variable {reader : LogReader format} {dialect : Dialect Marker} {model : Model} {offset : Nat}
variable {bytes : Bytes} {marker : UInt8}

/-- A reader which stopped at a fault is asked in vain. -/
theorem requests_of_faulted (stopped : reader.phase = .faulted) (count : Nat) :
    reader.requests count = (List.replicate count (.ok .faulted), reader) := by
  have same : reader.next = (.ok .faulted, reader) := by
    unfold next
    rw [stopped]
  induction count with
  | zero => rfl
  | succ count inductionHypothesis =>
      rw [requests, same]
      dsimp only
      rw [inductionHypothesis, List.replicate_succ]

/-- A reader in front of legible records answers requests for them as if each was
applied to the model in turn. -/
theorem replays_of_legible
    {script : Script Record}
    {records : List Record}
    {tail : Bytes}
    (stands : reader.Stands dialect model offset (script.encodeAll records ++ tail))
    (legible : format.Legible script dialect model offset records) :
    reader.Replays records.length (format.replay script model offset records) := by
  induction records generalizing reader model offset with
  | nil => exact ⟨rfl, stands.model_eq, stands.offset_eq, stands.streams.phase_eq⟩
  | cons record records inductionHypothesis =>
      obtain ⟨incomplete, judged, behind⟩ := legible
      rw [Script.encodeAll_cons, List.append_assoc] at stands
      cases applied : (format.apply (offset + 1) record).run model with
      | ok value next =>
          have verdict :=
            (judged (script.encodeAll records ++ tail)).trans (LogFormat.verdictOn_of_ok applied)
          obtain ⟨later, answered, standsLater⟩ := stands.next_of_decoded incomplete verdict
          rw [List.drop_left] at standsLater
          obtain ⟨answers, rest⟩ := inductionHypothesis standsLater (behind next applied)
          have asked : reader.requests (record :: records).length =
              (.ok (.decoded (script.marker record) offset) ::
                (later.requests records.length).1, (later.requests records.length).2) := by
            rw [List.length_cons, requests, answered]
          rw [LogFormat.replay_of_ok applied]
          refine ⟨?_, ?_, ?_, ?_⟩ <;> rw [asked]
          · exact congrArg (_ :: ·) answers
          all_goals assumption
      | error error left =>
          have verdict :=
            (judged (script.encodeAll records ++ tail)).trans (LogFormat.verdictOn_of_error applied)
          obtain ⟨later, answered, stopped, same, place⟩ :=
            stands.next_of_refused incomplete verdict
          have asked : reader.requests (record :: records).length =
              (List.replicate (records.length + 1) (.ok .faulted), later) := by
            rw [List.length_cons, requests, answered, requests_of_faulted stopped,
              List.replicate_succ]
          rw [LogFormat.replay_of_error applied]
          refine ⟨?_, ?_, ?_, ?_⟩ <;> rw [asked]
          · rw [List.map_replicate]
          all_goals assumption

/-- Decoding all of a log which starts with legible records gives what becomes of
them, if the log ends behind them or one of them has a fault. -/
theorem readToEnd_of_legible
    {script : Script Record}
    {records : List Record}
    {tail : Bytes}
    (stands : reader.Stands dialect model offset (script.encodeAll records ++ tail))
    (legible : format.Legible script dialect model offset records)
    (last : tail = [] ∨ (format.replay script model offset records).phase = .faulted) :
    reader.readToEnd = .ok (format.replay script model offset records).model := by
  rw [stands.readToEnd_eq, LogFormat.decodeFrom_of_legible legible tail]
  rcases last with rfl | faulted
  · split
    · rfl
    · by_cases complete : format.isComplete (format.replay script model offset records).model
      · rw [LogFormat.decodeFrom_of_complete complete]
      · rw [LogFormat.decodeFrom_of_unfinished complete rfl]
        rfl
  · rw [faulted]

/-- A run over the records of a log decodes some, and a request for each of them leads
to the same states. -/
theorem Reached.drainFrom
    {source : Stream.Source}
    {chunk : Nat}
    {history : List Record}
    (reached : Reached source chunk history reader)
    (found : List (UInt8 × Nat)) :
    ∃ records : List Record,
      (reader.drainFrom found).decoded.length = found.length + records.length ∧
      Reached source chunk (records.reverse ++ history) (reader.drainFrom found).reader ∧
      ∀ count ≤ records.length,
        Reached source chunk ((records.take count).reverse ++ history)
          (reader.requests count).2 := by
  fun_induction LogReader.drainFrom reader found generalizing history with
  | case1 reader found marker offset later answered inductionHypothesis =>
      obtain ⟨record, taken⟩ := takes_of_next answered
      obtain ⟨records, size, last, between⟩ :=
        inductionHypothesis (.decoded reached answered taken)
      refine ⟨record :: records, ?_, ?_, fun count within => ?_⟩
      · rw [size, List.length_cons, List.length_cons, Nat.add_assoc, Nat.add_comm 1]
      · rw [List.reverse_cons, List.append_assoc]
        exact last
      · cases count with
        | zero => exact reached
        | succ count =>
            have asked : (reader.requests (count + 1)).2 = (later.requests count).2 := by
              rw [requests, answered]
            rw [asked, List.take_succ_cons, List.reverse_cons, List.append_assoc]
            exact between count (Nat.le_of_succ_le_succ within)
  | case2 reader found last later other answered =>
      have left : ∀ marker offset, last ≠ .ok (.decoded marker offset) := by
        rintro marker offset rfl
        exact other marker offset rfl
      refine ⟨[], by simp, .answered reached answered left, fun count within => ?_⟩
      cases Nat.le_zero.mp within
      exact reached

/-- Decoding all of a log leads to a state with its records, and requests for the
first ones lead to states with these. -/
theorem exists_reached_of_readToEnd
    {source : Stream.Source}
    {chunk : Nat}
    (opened : open? format source chunk = .ok reader)
    (ended : reader.readToEnd = .ok model) :
    ∃ (records : List Record) (last : LogReader format),
      records.length = reader.drain.decoded.length ∧
      Reached source chunk records.reverse last ∧
      last.model = model ∧
      ∀ count ≤ records.length,
        Reached source chunk (records.take count).reverse (reader.requests count).2 := by
  obtain ⟨records, size, reached, between⟩ := (Reached.opened opened).drainFrom []
  rw [List.append_nil] at reached
  have size : records.length = reader.drain.decoded.length := by
    rw [drain, size, List.length_nil, Nat.zero_add]
  simp only [List.append_nil] at between
  rw [readToEnd_eq] at ended
  unfold Drained.outcome at ended
  split at ended
  · cases ended
  · cases ended
    exact ⟨records, _, size, .finished reached, rfl, between⟩
  · cases ended
    exact ⟨records, _, size, reached, rfl, between⟩

end LogReader
end RuntimeLog
