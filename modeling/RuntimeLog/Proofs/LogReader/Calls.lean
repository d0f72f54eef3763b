import RuntimeLog.Proofs.LogReader.Finishing

/-!
# Calls of readers

A reader is used by requests for records and by the declaration that nothing more
will arrive, in any order, while more of its stream may arrive in between.  Once
decoding has ended, no call changes anything.

The faults which a reader hands to its model are recorded by a format whose models
keep a list of them.  In everything else such a reader does what the reader does
which it records.
-/

namespace RuntimeLog

/-! ## Models which record their faults -/

/-- A model, with all faults which were handed to it. -/
structure Recorded (Model : Type) where
  model : Model
  faults : List Fault

namespace Recorded

variable {Model : Type}

/-- An update of a model leaves the recorded faults alone. -/
def update (update : Update Model Unit) : Update (Recorded Model) Unit := fun recorded =>
  match update.run recorded.model with
  | .ok () model => .ok () { recorded with model }
  | .error error model => .error error { recorded with model }

end Recorded

variable {Marker Record Model : Type}

/-- The format whose models also record the faults which they are handed. -/
def LogFormat.recording (format : LogFormat Marker Record Model) :
    LogFormat Marker Record (Recorded Model) where
  flag := format.flag
  markers? := format.markers?
  start header := { model := format.start header, faults := [] }
  payload header recorded marker := format.payload header recorded.model marker
  apply offset record := Recorded.update (format.apply offset record)
  advance recorded offset := { recorded with model := format.advance recorded.model offset }
  stop recorded fault :=
    { model := format.stop recorded.model fault, faults := recorded.faults ++ [fault] }
  isComplete recorded := format.isComplete recorded.model

namespace LogReader

/-- The record of which an answer tells. -/
def decodedStatus? : Except String Status → Option Status
  | .ok (.decoded marker offset) => some (.decoded marker offset)
  | _ => none

/-- The answer of a reader which has ended. -/
def endStatus (phase : Phase) : Status :=
  match phase with
  | .faulted => .faulted
  | _ => .ended

@[simp] theorem decodedStatus?_endStatus (phase : Phase) :
    decodedStatus? (.ok (endStatus phase)) = none := by
  cases phase <;> rfl

variable [Stream.Decompressor]
variable {format : LogFormat Marker Record Model}

/-! ## Calls -/

/-- What happens to a reader. -/
inductive Call where
  /-- A record is asked for. -/
  | request
  /-- It is declared that nothing more will arrive. -/
  | declaration
  /-- Something arrives at the end of the stream. -/
  | arrival (arrival : Stream.Arrival)

/-- The answer to a call.  Only requests are answered. -/
def answer? (reader : LogReader format) : Call → Option (Except String Status)
  | .request => some reader.next.1
  | .declaration => none
  | .arrival _ => none

/-- The reader behind a call. -/
def afterCall (reader : LogReader format) : Call → LogReader format
  | .request => reader.next.2
  | .declaration => reader.finish
  | .arrival arrival => reader.push arrival

/-- The reader behind some calls. -/
def after (reader : LogReader format) (calls : List Call) : LogReader format :=
  calls.foldl afterCall reader

/-- The record which is decoded by a call. -/
def decodes? (reader : LogReader format) (call : Call) : Option Status :=
  (reader.answer? call).bind decodedStatus?

/-- The records which are decoded by some calls. -/
def decodedBy (reader : LogReader format) : List Call → List Status
  | [] => []
  | call :: calls => (reader.decodes? call).toList ++ (reader.afterCall call).decodedBy calls

variable {reader later : LogReader format} {answer : Except String Status}

@[simp] theorem after_nil (reader : LogReader format) : reader.after [] = reader := rfl

@[simp] theorem after_cons (reader : LogReader format) (call : Call) (calls : List Call) :
    reader.after (call :: calls) = (reader.afterCall call).after calls :=
  rfl

/-! ## Readers which have ended -/

/-- Once decoding has ended, a call changes no more than the source. -/
theorem afterCall_of_ended
    (ended : reader.phase ≠ .streaming)
    (call : Call) :
    (reader.afterCall call).phase = reader.phase ∧
      (reader.afterCall call).model = reader.model ∧
      (reader.afterCall call).nextOffset = reader.nextOffset := by
  cases call with
  | request =>
      have same : reader.next.2 = reader := by
        unfold next
        split <;> simp_all
      rw [afterCall, same]
      exact ⟨rfl, rfl, rfl⟩
  | declaration =>
      have same : reader.finish = reader := by
        unfold finish
        split <;> simp_all
      rw [afterCall, same]
      exact ⟨rfl, rfl, rfl⟩
  | arrival arrival => exact ⟨rfl, rfl, rfl⟩

/-- Once decoding has ended, every request gets the same answer, and no call changes
the model or the place of the reader. -/
theorem after_of_ended
    (ended : reader.phase ≠ .streaming)
    (calls : List Call) :
    (reader.after calls).next.1 = .ok (endStatus reader.phase) ∧
      (reader.after calls).model = reader.model ∧
      (reader.after calls).nextOffset = reader.nextOffset := by
  induction calls generalizing reader with
  | nil =>
      refine ⟨?_, rfl, rfl⟩
      rw [after_nil, next]
      cases phase : reader.phase with
      | streaming => exact absurd phase ended
      | done => rfl
      | faulted => rfl
  | cons call calls inductionHypothesis =>
      obtain ⟨phase, model, offset⟩ := afterCall_of_ended ended call
      obtain ⟨answer, lastModel, lastOffset⟩ := inductionHypothesis (phase ▸ ended)
      rw [after_cons]
      exact ⟨answer.trans (by rw [phase]), lastModel.trans model, lastOffset.trans offset⟩

/-- A request which is answered by the end or by a fault ends decoding. -/
theorem ended_of_next
    {status : Status}
    (decided : reader.buffer.encoding ≠ .undecided)
    (answered : reader.next = (.ok status, later))
    (ends : status = .ended ∨ status = .faulted) :
    later.phase ≠ .streaming ∧ endStatus later.phase = status := by
  unfold next at answered
  cases phase : reader.phase with
  | done =>
      rw [phase] at answered
      cases answered
      simp [phase, endStatus]
  | faulted =>
      rw [phase] at answered
      cases answered
      simp [phase, endStatus]
  | streaming =>
      rw [phase] at answered
      by_cases complete : format.isComplete reader.model
      · simp only [if_pos complete] at answered
        cases answered
        simp [endStatus]
      · simp only [if_neg complete] at answered
        have replies := replies_decodeOne decided
        rw [answered] at replies
        cases replies with
        | pending receives judged => simp at ends
        | faulted receives judged => simp [stopAt, endStatus]
        | decoded receives judged => simp at ends

/-! ## Recorded readers -/

/-- A reader which also records the faults which it hands to its model, behind some
earlier ones. -/
def recorded (reader : LogReader format) (faults : List Fault) : LogReader format.recording :=
  { buffer := reader.buffer
    header := reader.header
    markers := reader.markers
    model := { model := reader.model, faults }
    phase := reader.phase }

/-- A reader which recorded the fault in its model. -/
def witnessed (reader : LogReader format) (ledger : format.Ledger) : LogReader format.recording :=
  reader.recorded (ledger.fault? reader.model).toList

/-- A log opens for recording as it opens otherwise. -/
theorem openBuffer_recording
    (format : LogFormat Marker Record Model)
    (buffer : Stream.Buffer) :
    openBuffer format.recording buffer = (openBuffer format buffer).map (recorded · []) := by
  fun_induction openBuffer format buffer with
  | case1 buffer header size parsed unsupported =>
      rw [openBuffer]
      simp_all [LogFormat.recording, Except.map]
  | case2 buffer header size parsed markers supported =>
      exact openBuffer_of_parsed parsed supported
  | case3 buffer parsed reason later filled =>
      rw [openBuffer]
      simp_all [LogFormat.recording, Except.map]
      split <;> simp_all
  | case4 buffer parsed later filled =>
      rw [openBuffer]
      simp_all [LogFormat.recording, Except.map]
      split <;> simp_all
  | case5 buffer parsed later filled inductionHypothesis =>
      have recording : Header.parse buffer.unread format.recording.flag = .ok none := parsed
      rw [openBuffer_of_fill recording filled, inductionHypothesis]
  | case6 buffer expected found parsed magic =>
      rw [openBuffer]
      simp_all [LogFormat.recording, Except.map]
  | case7 buffer expected found parsed other =>
      rw [openBuffer]
      simp_all [LogFormat.recording, Except.map]
  | case8 buffer cause parsed other =>
      rw [openBuffer]
      simp_all [LogFormat.recording, Except.map]

variable {ledger : format.Ledger}

/-- Behind a marker, a recording reader does what the recorded one does. -/
theorem decodeBehind_witnessed
    (sound : ledger.fault? reader.model = none)
    (marker : UInt8)
    (meaning : Marker) :
    (reader.witnessed ledger).decodeBehind marker meaning =
      ((reader.decodeBehind marker meaning).1,
        (reader.decodeBehind marker meaning).2.witnessed ledger) := by
  have same : (reader.witnessed ledger).buffer.read 1
      (format.recording.payload (reader.witnessed ledger).header (reader.witnessed ledger).model
        meaning) =
      reader.buffer.read 1 (format.payload reader.header reader.model meaning) := rfl
  unfold decodeBehind
  rw [same]
  rcases reader.buffer.read 1 (format.payload reader.header reader.model meaning) with
    ⟨reason | outcome, buffer⟩
  · rfl
  · cases outcome with
    | incomplete => rfl
    | malformed error used =>
        simp only [stopAt, witnessed, recorded, sound, LogFormat.recording, ledger.fault_stop]
        rfl
    | complete record used =>
        have applied_eq :
            (format.recording.apply (buffer.offset + 1) record).run
                (reader.witnessed ledger).model =
              match (format.apply (buffer.offset + 1) record).run reader.model with
              | .ok () model => .ok () { (reader.witnessed ledger).model with model }
              | .error error model => .error error { (reader.witnessed ledger).model with model } :=
          rfl
        dsimp only
        rw [applied_eq]
        cases applied : (format.apply (buffer.offset + 1) record).run reader.model with
        | error error model =>
            simp only [stopAt, witnessed, recorded, sound, LogFormat.recording, ledger.fault_stop]
            rfl
        | ok value model =>
            simp only [witnessed, recorded, LogFormat.recording, ledger.fault_advance,
              ledger.fault_of_ok applied]

/-- A recording reader decodes one record as the recorded one does. -/
theorem decodeOne_witnessed (sound : ledger.fault? reader.model = none) :
    (reader.witnessed ledger).decodeOne =
      (reader.decodeOne.1, reader.decodeOne.2.witnessed ledger) := by
  fun_induction decodeOne reader with
  | case1 reader marker payload unread error unknown =>
      have same : (reader.witnessed ledger).decodeOne =
          (.ok .faulted, (reader.witnessed ledger).stopAt marker error) := by
        rw [decodeOne]
        simp_all [witnessed, recorded]
      rw [same]
      simp only [stopAt, witnessed, recorded, sound, LogFormat.recording, ledger.fault_stop]
      rfl
  | case2 reader marker payload unread meaning found =>
      have recording : (reader.witnessed ledger).buffer.unread = marker :: payload := unread
      rw [decodeOne_of_marker recording found, decodeBehind_witnessed sound]
  | case3 reader unread reason buffer filled =>
      rw [decodeOne]
      split
      · simp_all [witnessed, recorded]
      · split <;> simp_all [witnessed, recorded]
  | case4 reader unread buffer filled =>
      rw [decodeOne]
      split
      · simp_all [witnessed, recorded]
      · split <;> simp_all [witnessed, recorded]
  | case5 reader unread buffer filled inductionHypothesis =>
      have nothing : (reader.witnessed ledger).buffer.unread = [] := unread
      rw [decodeOne_of_fill nothing filled, ← inductionHypothesis sound]
      rfl

/-- A recording reader replies to a request as the recorded one does. -/
theorem next_witnessed
    (sound : reader.phase ≠ .faulted → ledger.fault? reader.model = none) :
    (reader.witnessed ledger).next = (reader.next.1, reader.next.2.witnessed ledger) := by
  cases phase : reader.phase with
  | done => simp [next, witnessed, recorded, phase]
  | faulted => simp [next, witnessed, recorded, phase]
  | streaming =>
      have streaming : (reader.witnessed ledger).phase = .streaming := phase
      by_cases complete : format.isComplete reader.model
      · have completeRecorded : format.recording.isComplete (reader.witnessed ledger).model :=
          complete
        unfold next
        simp only [phase, streaming, if_pos complete, if_pos completeRecorded]
        rfl
      · rw [next_eq_decodeOne phase complete, next_eq_decodeOne streaming complete,
          decodeOne_witnessed (sound (by simp [phase]))]

/-- A recording reader is told that nothing more will arrive as the recorded one is. -/
theorem finish_witnessed
    (sound : reader.phase ≠ .faulted → ledger.fault? reader.model = none) :
    (reader.witnessed ledger).finish = reader.finish.witnessed ledger := by
  cases phase : reader.phase with
  | done => simp [finish, witnessed, recorded, phase]
  | faulted => simp [finish, witnessed, recorded, phase]
  | streaming =>
      have none := sound (by simp [phase])
      cases unread : reader.buffer.unread with
      | nil => simp [finish, witnessed, recorded, phase, unread]
      | cons marker rest =>
          simp [finish, witnessed, recorded, phase, unread, stopAt, LogFormat.recording, none,
            ledger.fault_stop]

/-- A recording reader does what the recorded one does. -/
theorem afterCall_witnessed
    (sound : reader.phase ≠ .faulted → ledger.fault? reader.model = none)
    (call : Call) :
    (reader.witnessed ledger).afterCall call = (reader.afterCall call).witnessed ledger ∧
      (reader.witnessed ledger).answer? call = reader.answer? call := by
  cases call with
  | request => 
      rw [afterCall, afterCall, answer?, answer?, next_witnessed sound]
      exact ⟨rfl, rfl⟩
  | declaration => exact ⟨finish_witnessed sound, rfl⟩
  | arrival arrival => exact ⟨rfl, rfl⟩

end LogReader
end RuntimeLog
