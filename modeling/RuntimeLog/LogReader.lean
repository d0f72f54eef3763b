import RuntimeLog.Header
import RuntimeLog.MarkerTable
import RuntimeLog.Stream.Buffer

/-!
# Log readers

A log format says how the records of a log are read and what they do to a model.  A
record is decoded in two steps: its payload is read whole, and only then does the record
change the model.  An unfinished record therefore leaves no trace in the model.  A record
whose change fails leaves what it changed before.

A log reader decodes the records of a stream one by one.  The stream may still
be growing: a record which is not complete yet can be asked for again later.
Decoding ends with the stream, with the end of the log, or with the first fault.
-/

namespace RuntimeLog

/-! ## Formats -/

/-- A format of logs, with the model which its records build. -/
structure LogFormat (Marker Record Model : Type) where
  /-- The first byte of every log of the format. -/
  flag : UInt8
  /-- The markers of a version, if it is supported. -/
  markers? : UInt16 → Option (MarkerTable Marker)
  /-- The model before the first record. -/
  start : Header → Model
  /-- How the payload of a record is read.  It may depend on the records before
  it. -/
  payload : Header → Model → Marker → Reading DecodeError Record
  /-- What a record does to the model, given the offset of its payload. -/
  apply : Nat → Record → Update Model Unit
  /-- Note that a record was decoded which ends at an offset. -/
  advance : Model → Nat → Model
  /-- Note the fault which ended decoding. -/
  stop : Model → Fault → Model
  /-- Whether the end of the log was seen. -/
  isComplete : Model → Bool

/-! ## Readers -/

variable [Stream.Decompressor]

/-- Whether a reader still decodes. -/
inductive Phase where
  | streaming
  | done
  | faulted
deriving DecidableEq, Repr

/-- The answer to a request for one record. -/
inductive Status where
  /-- A record with this marker, at this offset, was decoded. -/
  | decoded (marker : UInt8) (offset : Nat)
  /-- The next record is not there yet. -/
  | pending
  /-- The log ended. -/
  | ended
  /-- A fault ended decoding. -/
  | faulted
deriving DecidableEq, Repr

/-- A reader of a log in some format. -/
structure LogReader {Marker Record Model : Type} (format : LogFormat Marker Record Model) where
  buffer : Stream.Buffer
  header : Header
  markers : MarkerTable Marker
  model : Model
  phase : Phase

namespace LogReader

variable {Marker Record Model : Type} {format : LogFormat Marker Record Model}

/-- Read the header behind the unread bytes of a buffer, and stand at the first
record. -/
def openBuffer
    (format : LogFormat Marker Record Model)
    (buffer : Stream.Buffer) : Except OpenError (LogReader format) :=
  match Header.parse buffer.unread format.flag with
  | .ok (some (header, size)) =>
      match format.markers? header.version with
      | none => .error (.unsupportedVersion header.version)
      | some markers =>
          .ok
            { buffer := buffer.consume size
              header
              markers
              model := format.start header
              phase := .streaming }
  | .ok none =>
      match _filled : buffer.fill with
      | (.error reason, _) => .error (.unreadable reason)
      | (.ok false, _) => .error .notEnoughBytes
      | (.ok true, next) => openBuffer format next
  | .error (.unexpectedFormatFlag expected found) =>
      if Stream.Zstd.magic.isPrefixOf buffer.unread then .error .nestedCompression
      else .error (.unexpectedFormatFlag expected found)
  | .error cause => .error cause
termination_by buffer.source.size
decreasing_by exact (Stream.Buffer.size_of_fill _filled).1

/-- Open a log which is read in chunks of some size. -/
def open?
    (format : LogFormat Marker Record Model)
    (source : Stream.Source)
    (chunk : Nat) : Except OpenError (LogReader format) :=
  openBuffer format (Stream.Buffer.start source chunk)

/-- The offset of the next record. -/
def nextOffset (reader : LogReader format) : Nat :=
  reader.buffer.offset

/-- Let something arrive at the end of the stream. -/
def push (reader : LogReader format) (arrival : Stream.Arrival) : LogReader format :=
  { reader with buffer := reader.buffer.push arrival }

/-- End decoding with a fault in the record with some marker. -/
def stopAt (reader : LogReader format) (marker : UInt8) (error : DecodeError) :
    LogReader format :=
  let fault : Fault := { offset := reader.buffer.offset, marker := some marker, error }
  { reader with model := format.stop reader.model fault, phase := .faulted }

/-- Decode the record behind a marker, and read as much of the stream as it
takes. -/
def decodeBehind
    (reader : LogReader format)
    (marker : UInt8)
    (meaning : Marker) : Except String Status × LogReader format :=
  match reader.buffer.read 1 (format.payload reader.header reader.model meaning) with
  | (.error reason, buffer) => (.error reason, { reader with buffer })
  | (.ok .incomplete, buffer) => (.ok .pending, { reader with buffer })
  | (.ok (.malformed error _), buffer) =>
      (.ok .faulted, { reader with buffer }.stopAt marker error)
  | (.ok (.complete record used), buffer) =>
      match (format.apply (buffer.offset + 1) record).run reader.model with
      | .error error model => (.ok .faulted, { reader with buffer, model }.stopAt marker error)
      | .ok () model =>
          (.ok (.decoded marker buffer.offset),
            { reader with
              buffer := buffer.consume (1 + used)
              model := format.advance model (buffer.offset + 1 + used) })

/-- Decode one record, and read as much of the stream as it takes. -/
def decodeOne (reader : LogReader format) : Except String Status × LogReader format :=
  match reader.buffer.unread with
  | marker :: _ =>
      match reader.markers.lookup marker with
      | .error error => (.ok .faulted, reader.stopAt marker error)
      | .ok meaning => reader.decodeBehind marker meaning
  | [] =>
      match _filled : reader.buffer.fill with
      | (.error reason, buffer) => (.error reason, { reader with buffer })
      | (.ok false, buffer) => (.ok .pending, { reader with buffer })
      | (.ok true, buffer) => decodeOne { reader with buffer }
termination_by reader.buffer.source.size
decreasing_by exact (Stream.Buffer.size_of_fill _filled).1

/-- Decode the next record, unless decoding has ended. -/
def next (reader : LogReader format) : Except String Status × LogReader format :=
  match reader.phase with
  | .done => (.ok .ended, reader)
  | .faulted => (.ok .faulted, reader)
  | .streaming =>
      if format.isComplete reader.model then (.ok .ended, { reader with phase := .done })
      else reader.decodeOne

/-- Declare that nothing more will arrive.  Unread bytes are then part of a
truncated record. -/
def finish (reader : LogReader format) : LogReader format :=
  match reader.phase with
  | .streaming =>
      match reader.buffer.unread with
      | [] => { reader with phase := .done }
      | marker :: _ => reader.stopAt marker .truncated
  | _ => reader

/-- Decoding a record whose marker is there consumes bytes of the stream. -/
theorem measure_of_decodeBehind
    {reader later : LogReader format}
    {first marker : UInt8}
    {meaning : Marker}
    {offset : Nat}
    (started : reader.buffer.unread ≠ [])
    (decoded : reader.decodeBehind first meaning = (.ok (.decoded marker offset), later)) :
    Prod.Lex (· < ·) (· < ·)
      (later.buffer.source.size, later.buffer.unread.length)
      (reader.buffer.source.size, reader.buffer.unread.length) := by
  unfold decodeBehind at decoded
  split at decoded
  · cases decoded
  · cases decoded
  · cases decoded
  · rename_i record used buffer found
    split at decoded
    · cases decoded
    · cases decoded
      rcases Stream.Buffer.size_of_readFrom found with rfl | grown
      · have unread := List.length_pos_iff.mpr started
        apply Prod.Lex.right
        simp only [Stream.Buffer.consume, List.length_drop]
        omega
      · exact Prod.Lex.left _ _ grown.1

/-- Decoding a record consumes bytes of the stream. -/
theorem measure_of_decodeOne
    {reader later : LogReader format}
    {marker : UInt8}
    {offset : Nat}
    (decoded : reader.decodeOne = (.ok (.decoded marker offset), later)) :
    Prod.Lex (· < ·) (· < ·)
      (later.buffer.source.size, later.buffer.unread.length)
      (reader.buffer.source.size, reader.buffer.unread.length) := by
  fun_induction decodeOne reader with
  | case1 => cases decoded
  | case2 reader first rest unread =>
      exact measure_of_decodeBehind (by simp [unread]) decoded
  | case3 => cases decoded
  | case4 => cases decoded
  | case5 reader unread buffer filled inductionHypothesis =>
      have grown := Stream.Buffer.size_of_fill filled
      have rest := Prod.lex_def.mp (inductionHypothesis decoded)
      simp only at rest
      exact Prod.Lex.left _ _ (by omega)

/-- Decoding the next record consumes bytes of the stream. -/
theorem measure_of_next
    {reader later : LogReader format}
    {marker : UInt8}
    {offset : Nat}
    (decoded : reader.next = (.ok (.decoded marker offset), later)) :
    Prod.Lex (· < ·) (· < ·)
      (later.buffer.source.size, later.buffer.unread.length)
      (reader.buffer.source.size, reader.buffer.unread.length) := by
  unfold next at decoded
  split at decoded
  · cases decoded
  · cases decoded
  · split at decoded
    · cases decoded
    · exact measure_of_decodeOne decoded

/-- What a run over many records gives. -/
structure Drained (format : LogFormat Marker Record Model) where
  /-- The markers and offsets of the decoded records. -/
  decoded : List (UInt8 × Nat)
  /-- The answer which ended the run. -/
  last : Except String Status
  reader : LogReader format

/-- Decode records for as long as there are some, behind those in the reversed
list. -/
def drainFrom (reader : LogReader format) (found : List (UInt8 × Nat)) : Drained format :=
  match _answered : reader.next with
  | (.ok (.decoded marker offset), later) => drainFrom later ((marker, offset) :: found)
  | (last, later) => { decoded := found.reverse, last, reader := later }
termination_by (reader.buffer.source.size, reader.buffer.unread.length)
decreasing_by exact measure_of_next _answered

/-- Decode records for as long as there are some. -/
def drain (reader : LogReader format) : Drained format :=
  reader.drainFrom []

/-- Decode all records of a stream to which nothing is added. -/
def readToEnd (reader : LogReader format) : Except String Model :=
  let drained := reader.drain
  match drained.last with
  | .error reason => .error reason
  | .ok .pending => .ok drained.reader.finish.model
  | .ok _ => .ok drained.reader.model

end LogReader

/-- Decode a log which is read in chunks of some size. -/
def LogFormat.decodeSource
    {Marker Record Model : Type}
    (format : LogFormat Marker Record Model)
    (source : Stream.Source)
    (chunk : Nat) : Except OpenError (Except String Model) :=
  (LogReader.open? format source chunk).map LogReader.readToEnd

/-- Decode a log which is at hand as a whole. -/
def LogFormat.decodeBytes
    {Marker Record Model : Type}
    (format : LogFormat Marker Record Model)
    (bytes : Bytes) : Except OpenError Model :=
  match format.decodeSource (.ofBytes bytes) Stream.Buffer.usualChunk with
  | .error cause => .error cause
  | .ok (.error reason) => .error (.unreadable reason)
  | .ok (.ok model) => .ok model

end RuntimeLog
