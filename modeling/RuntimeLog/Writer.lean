import RuntimeLog.Text.Utf8
import RuntimeLog.Words

/-!
# Written fields

The encodings of the fields which records are made of.  They are what the
readings of the same names accept.
-/

namespace RuntimeLog

/-- A field of a record, with its value. -/
inductive Field where
  | u8 (value : UInt8)
  | u16 (value : UInt16)
  | u32 (value : UInt32)
  | u64 (value : UInt64)
  /-- A number as wide as the words of the stream; higher bytes are dropped. -/
  | address (value : UInt64)
  /-- Bytes behind their length in four bytes. -/
  | blob (value : Bytes)
  /-- A text in UTF-8 behind its length in four bytes. -/
  | text (value : String)
  /-- Bytes as they are. -/
  | raw (value : Bytes)
deriving DecidableEq, Repr

namespace Field

/-- The bytes of a field. -/
def encode (words : WordSize) : Field → Bytes
  | u8 value => [value]
  | u16 value => LittleEndian.encode 2 value.toNat
  | u32 value => LittleEndian.encode 4 value.toNat
  | u64 value => LittleEndian.encode 8 value.toNat
  | address value => LittleEndian.encode words.bytes value.toNat
  | blob value => LittleEndian.encode 4 value.length ++ value
  | text value => LittleEndian.encode 4 (Text.toUtf8 value).length ++ Text.toUtf8 value
  | raw value => value

/-- The bytes of fields one after the other. -/
def encodeAll (words : WordSize) (fields : List Field) : Bytes :=
  fields.flatMap (encode words)

@[simp] theorem encodeAll_nil (words : WordSize) : encodeAll words [] = [] := rfl

@[simp] theorem encodeAll_cons (words : WordSize) (field : Field) (fields : List Field) :
    encodeAll words (field :: fields) = field.encode words ++ encodeAll words fields := rfl

end Field

/-- Bytes which grow by one field after the other. -/
structure Writer where
  words : WordSize
  /-- All bytes written so far. -/
  written : Array UInt8
deriving DecidableEq, Repr

namespace Writer

/-- A writer which has written nothing. -/
def empty (words : WordSize) : Writer :=
  { words, written := #[] }

/-- Append a field. -/
def push (writer : Writer) (field : Field) : Writer :=
  { writer with written := writer.written ++ field.encode writer.words }

/-- Append fields in order. -/
def pushAll (writer : Writer) (fields : List Field) : Writer :=
  fields.foldl push writer

/-- The number of bytes written so far. -/
def length (writer : Writer) : Nat :=
  writer.written.size

/-- Whether nothing was written. -/
def isEmpty (writer : Writer) : Bool :=
  writer.written.isEmpty

/-- The bytes written so far. -/
def toBytes (writer : Writer) : Bytes :=
  writer.written.toList

@[simp] theorem toBytes_push (writer : Writer) (field : Field) :
    (writer.push field).toBytes = writer.toBytes ++ field.encode writer.words := by
  simp [push, toBytes]

@[simp] theorem words_push (writer : Writer) (field : Field) :
    (writer.push field).words = writer.words := rfl

@[simp] theorem words_pushAll (writer : Writer) (fields : List Field) :
    (writer.pushAll fields).words = writer.words := by
  induction fields generalizing writer with
  | nil => rfl
  | cons field fields inductionHypothesis => exact inductionHypothesis (writer.push field)

/-- Writing fields one by one appends the bytes of all of them. -/
theorem toBytes_pushAll (writer : Writer) (fields : List Field) :
    (writer.pushAll fields).toBytes =
      writer.toBytes ++ Field.encodeAll writer.words fields := by
  induction fields generalizing writer with
  | nil => simp [pushAll]
  | cons field fields inductionHypothesis =>
      have step := inductionHypothesis (writer.push field)
      simp only [words_push, toBytes_push] at step
      simpa [pushAll, List.append_assoc] using step

end Writer
end RuntimeLog
